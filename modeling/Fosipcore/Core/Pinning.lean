import Fosipcore.Core.Dials

/-!
# The pinned camera

The session keeps the address of its first login for later dials, but the login handler resolves
the claim of every login again, and dials the new answer with the credentials before the session
is asked for the address that it holds. All dials between an accepted login and the next logout
go to the pinned address in the runs in which the resolver stays with its answer.

## Main definitions

* `Connection.SameAddress`: a dial goes to the pinned address, if there is one
* `Connection.heldIp`: the address that the session holds, of an accepted login or not
* `Connection.resolvesSame`: the condition on the answers of the resolver

## Main results

* `Connection.run_pinned`: dials stay with the pinned address in the runs that meet the condition
* `Connection.relogin_redials`: a login after a DNS change dials the new address
-/

namespace Fosipcore

open Machine Text Ip Trace

namespace Connection

/-- While a login is pinned, a dial goes to its address. -/
def SameAddress (past : List NetEvent) : NetEvent → Prop
  | .dial _ addr => ∀ first, pinned past = some first → addr.ip = first.ip
  | _ => True

/-- Any login that arms the session makes it hold an address until the next logout. -/
def anyLogin : NetEvent → Signal IpAddr
  | .loggedIn addr _ => .offer addr.ip
  | .loggedOut => .clear
  | _ => .keep

/-- The address that the session holds. -/
def heldIp (past : List NetEvent) : Option IpAddr := latch anyLogin past

variable {origin : Option OriginInfo} {s s' : Connection}

/-- The planes keep their handles, and a claim that is admitted while the session holds a camera
resolves to the address of that camera. -/
def resolvesSame (origin : Option OriginInfo) (s : Connection) (e : Event) : Prop :=
  s.keepsHandles e ∧
    match e with
    | .message msg answers =>
      ∀ cmd ∈ msg.loginCmd, ∀ c ∈ s.session.camera,
        ∀ addr ∈ admitted origin cmd answers.lookupHost, addr.ip = c.addr.ip
    | _ => True

instance : (e : Event) → Decidable (resolvesSame origin s e)
  | .message _ _ => inferInstanceAs (Decidable (_ ∧ ∀ cmd ∈ _, _))
  | .disconnect | .advance _ _ | .finish _ _ | .dial _ _ => inferInstanceAs (Decidable (_ ∧ True))

/-- The session, its pinned login and its active planes agree on one address. -/
structure Pinned (s : Connection) : Prop where
  checked : Checked SameAddress s.trace
  camera : ∀ c, s.session.camera = some c → heldIp s.trace = some c.addr.ip
  fresh : s.session.camera = none → s.loggingOut = false → heldIp s.trace = none
  pinned : ∀ first, pinned s.trace = some first → heldIp s.trace = some first.ip
  targets : ∀ p ∈ s.planes, p.session.Active → ∀ x ∈ p.targets, heldIp s.trace = some x.2.ip

theorem pinned_new : new.Pinned := ⟨.nil, nofun, fun _ _ => rfl, nofun, nofun⟩

/-- Resolves, and dials that stay with the pinned address. -/
theorem Pinned.extend (h : s.Pinned) {es : List NetEvent}
    (hes : ∀ e ∈ es, (∃ host port addr, e = .resolved host port addr) ∨
      ∃ kind addr, e = .dial kind addr ∧ SameAddress s.trace (.dial kind addr)) :
    { s with trace := s.trace ++ es }.Pinned := by
  have hkeep : ∀ e ∈ es, acceptedLogin e = .keep ∧ anyLogin e = .keep := by
    intro e he
    rcases hes e he with ⟨host, port, addr, rfl⟩ | ⟨kind, addr, rfl, -⟩
    · exact ⟨rfl, rfl⟩
    · exact ⟨rfl, rfl⟩
  have hpinned : ∀ past, (∀ e ∈ past, e ∈ es) →
      Connection.pinned (s.trace ++ past) = Connection.pinned s.trace := fun past hpast =>
    latch_append_of_keep _ fun e he => (hkeep e (hpast e he)).1
  have hheld : heldIp (s.trace ++ es) = heldIp s.trace :=
    latch_append_of_keep _ fun e he => (hkeep e he).2
  refine ⟨checked_append.mpr ⟨h.checked, ?_⟩, ?_, ?_, ?_, ?_⟩
  · rintro past e rest rfl
    rcases hes e List.mem_append_cons_self with ⟨host, port, addr, rfl⟩ | ⟨kind, addr, rfl, hsame⟩
    · trivial
    · intro first hfirst
      rw [hpinned past fun e he => List.mem_append_left _ he] at hfirst
      exact hsame first hfirst
  · rw [hheld]
    exact h.camera
  · rw [hheld]
    exact h.fresh
  · rw [hheld, hpinned es fun _ he => he]
    exact h.pinned
  · rw [hheld]
    exact h.targets

/-- Dials of the address that the session holds, or of any while it holds none. -/
theorem Pinned.sameAddress (h : s.Pinned) {kind : DialKind} {addr : SocketAddr}
    (hheld : heldIp s.trace = none ∨ heldIp s.trace = some addr.ip) :
    SameAddress s.trace (.dial kind addr) := by
  intro first hfirst
  have hfirst' := h.pinned first hfirst
  rcases hheld with hnone | hsome
  · cases hnone.symm.trans hfirst'
  · exact Option.some.inj (hsome.symm.trans hfirst')

/-- A change of a plane that makes it no more active, and adds no target but the held address. -/
theorem Pinned.onPlane (h : s.Pinned) {i : ℕ} {f : Plane → Option Plane}
    (hf : ∀ p p', f p = some p' → (p'.session.Active → p.session.Active) ∧
      ∀ x ∈ p'.targets, x ∈ p.targets ∨ heldIp s.trace = some x.2.ip)
    (hstep : s.onPlane i f = some s') : s'.Pinned := by
  obtain ⟨p, p', -, -, rfl⟩ := onPlane_cases hstep
  refine ⟨h.checked, h.camera, h.fresh, h.pinned, fun q hq hactive x hx => ?_⟩
  rcases mem_planes_onPlane hstep hq with hq | ⟨p, hp, hpq⟩
  · exact h.targets q hq hactive x hx
  · obtain ⟨hactive', htargets⟩ := hf p q hpq
    rcases htargets x hx with hx | hx
    · exact h.targets p hp (hactive' hactive) x hx
    · exact hx

/-- An event of a plane, its teardown included, adds nothing. -/
theorem step_plane {p p' : Plane} {e : VideoSession.Event} (hstep : p.step e = some p')
    (ips : Option IpAddr) : (p'.session.Active → p.session.Active) ∧
      ∀ x ∈ p'.targets, x ∈ p.targets ∨ ips = some x.2.ip := by
  constructor
  · obtain ⟨session, hsession, rfl⟩ := Option.map_eq_some_iff.mp hstep
    exact VideoSession.step_active hsession
  · intro x hx
    rw [Plane.step_targets hstep] at hx
    exact .inl hx

theorem Pinned.planeStep (h : s.Pinned) {i : ℕ} {e : VideoSession.Event}
    (hstep : s.onPlane i (Plane.step · e) = some s') : s'.Pinned := by
  apply h.onPlane _ hstep
  intro p p' hp'
  exact step_plane hp' _

/-- A logout that ends leaves no plane active. -/
theorem Pinned.settle (h : s.Pinned) (hsound : s.Sound) : s.settle.Pinned := by
  rcases s.settle_cases with heq | ⟨hout, hidle, heq⟩
  · rwa [heq]
  · have hcamera := hsound.loggingOut hout
    have hheld : heldIp (s.trace ++ [.loggedOut]) = none := latch_snoc anyLogin _ _
    have hpinned : Connection.pinned (s.trace ++ [.loggedOut]) = none :=
      latch_snoc acceptedLogin _ _
    rw [heq]
    refine ⟨checked_snoc.mpr ⟨h.checked, trivial⟩, ?_, fun _ _ => hheld, ?_, ?_⟩
    · intro c hc
      cases hcamera.symm.trans hc
    · intro first hfirst
      cases hpinned.symm.trans hfirst
    · intro p hp hactive
      rcases hactive with hvideo | hawait
      · -- the plane would be that of the session's video server, and the session have a camera
        obtain ⟨i, hi⟩ := List.getElem?_of_mem hp
        have hsome := hsound.camera (Option.isSome_of_eq_some (hsound.live i p hi hvideo))
        rw [hcamera] at hsome
        cases hsome
      · rw [hidle p hp] at hawait
        cases hawait

/-- A teardown touches neither the camera nor the targets. -/
theorem Pinned.teardownVideo (h : s.Pinned) (hstep : s.teardownVideo = some s') : s'.Pinned := by
  obtain ⟨planes, rfl, -⟩ := teardownVideo_cases hstep
  refine ⟨h.checked, h.camera, h.fresh, h.pinned, fun q hq hactive x hx => ?_⟩
  rcases mem_planes_teardownVideo hstep hq with hq | ⟨p, hp, hpq⟩
  · exact h.targets q hq hactive x hx
  · obtain ⟨hactive', htargets⟩ := step_plane hpq none
    rcases htargets x hx with hx | hx
    · exact h.targets p hp (hactive' hactive) x hx
    · cases hx

/-! ## A login -/

/-- After a login the session holds the address that it held before, or else that of the claim. -/
theorem heldIp_loginEvents (trace : List NetEvent) (host : Str) (port : UInt16) (addr : SocketAddr)
    (result : ℤ) {dials : List NetEvent} (hdials : ∀ e ∈ dials, e = .dial .initInfo addr) :
    heldIp (trace ++ loginEvents host port addr dials result) =
      (heldIp trace).or (some addr.ip) :=
  latch_loginEvents _ (fun _ _ _ => rfl) (fun _ _ => rfl) host port addr result hdials

/-- A claim that a guarded session admits is for the address that the session holds. -/
theorem Pinned.held_of_admitted (h : s.Pinned) (hready : s.Ready) {cmd : LoginCmd}
    {answers : Answers}
    (hguard : ∀ c ∈ s.session.camera, ∀ addr ∈ admitted origin cmd answers.lookupHost,
      addr.ip = c.addr.ip)
    {addr : SocketAddr} (hadmitted : admitted origin cmd answers.lookupHost = some addr) :
    heldIp s.trace = none ∨ heldIp s.trace = some addr.ip := by
  cases hcamera : s.session.camera with
  | none => exact .inl (h.fresh hcamera hready.2.1)
  | some c =>
    rw [hguard c hcamera addr hadmitted]
    exact .inr (h.camera c hcamera)

/-- The dials of a login: its own and those of the init-info stay with the held address. -/
theorem Pinned.checked_login (h : s.Pinned) (host : Str) (port : UInt16) {addr : SocketAddr}
    (result : ℤ) {dials : List NetEvent}
    (hheld : heldIp s.trace = none ∨ heldIp s.trace = some addr.ip)
    (hdials : ∀ e ∈ dials, e = .dial .initInfo addr) :
    Checked SameAddress (s.trace ++ loginEvents host port addr dials result) := by
  -- the login event is the last one, and nothing before it changes what is pinned
  have hfront : { s with trace := s.trace ++ ([NetEvent.resolved host port addr,
      .dial .login addr] ++ dials) }.Pinned := by
    apply h.extend
    intro e he
    rcases List.mem_append.mp he with he | he
    · rcases List.mem_cons.mp he with rfl | he
      · exact .inl ⟨host, port, addr, rfl⟩
      · exact .inr ⟨.login, addr, List.mem_singleton.mp he, h.sameAddress hheld⟩
    · exact .inr ⟨.initInfo, addr, hdials e he, h.sameAddress hheld⟩
  have hsplit : loginEvents host port addr dials result =
      [.resolved host port addr, .dial .login addr] ++ dials ++ [.loggedIn addr result] := rfl
  rw [hsplit, ← List.append_assoc]
  exact checked_snoc.mpr ⟨hfront.checked, trivial⟩

/-- An accepted login pins its own address at most, and that is the one held after it. -/
theorem Pinned.pinned_login (h : s.Pinned) (host : Str) (port : UInt16) {addr : SocketAddr}
    (result : ℤ) {dials : List NetEvent} (hdials : ∀ e ∈ dials, e = .dial .initInfo addr)
    {first : SocketAddr}
    (hfirst : Connection.pinned (s.trace ++ loginEvents host port addr dials result) =
      some first) : heldIp s.trace = some first.ip ∨ first = addr := by
  rw [pinned_loginEvents s.trace host port addr result hdials] at hfirst
  split_ifs at hfirst
  · rw [Option.or_eq_some_iff] at hfirst
    rcases hfirst with hfirst | ⟨-, hfirst⟩
    · exact .inl (h.pinned first hfirst)
    · exact .inr (Option.some.inj hfirst).symm
  · exact .inl (h.pinned first hfirst)

/-- A login that arms the session, for the address that it holds if it holds one. -/
theorem Pinned.armed (h : s.Pinned) (host : Str) (port : UInt16) {camera : CameraInfo}
    (result : ℤ) {dials : List NetEvent} (creds : Str × Str)
    (newVideo : Option UInt16)
    (hheld : heldIp s.trace = none ∨ heldIp s.trace = some camera.addr.ip)
    (hdials : ∀ e ∈ dials, e = .dial .initInfo camera.addr) :
    ({ s with trace := s.trace ++ loginEvents host port camera.addr dials result }.applyAction
      ⟨some camera, some creds, newVideo⟩).Pinned := by
  have hlogin := heldIp_loginEvents s.trace host port camera.addr result hdials
  have hnow : heldIp (s.trace ++ loginEvents host port camera.addr dials result) =
      some camera.addr.ip := by
    rcases hheld with hnone | hsome
    · rw [hlogin, hnone, Option.none_or]
    · rw [hlogin, hsome, Option.some_or]
  have hstays : ∀ ip, heldIp s.trace = some ip →
      heldIp (s.trace ++ loginEvents host port camera.addr dials result) = some ip := by
    intro ip hip
    rw [hlogin, hip, Option.some_or]
  obtain ⟨planes, hplanes, hnew, htrace, hcamera⟩ := applyAction_armed
    { s with trace := s.trace ++ loginEvents host port camera.addr dials result }
    camera creds newVideo
  refine ⟨?_, ?_, ?_, ?_, ?_⟩
  · rw [htrace]
    exact h.checked_login host port result hheld hdials
  · intro c hc
    rw [hcamera, Option.or_eq_some_iff] at hc
    rw [htrace]
    rcases hc with hc | ⟨-, hc⟩
    · exact hstays _ (h.camera c hc)
    · obtain rfl := Option.some.inj hc
      exact hnow
  · intro hnone
    rw [hcamera, Option.or_eq_none_iff] at hnone
    cases hnone.2
  · intro first hfirst
    rw [htrace] at hfirst ⊢
    rcases h.pinned_login host port result hdials hfirst with hip | rfl
    · exact hstays _ hip
    · exact hnow
  · intro p hp hactive x hx
    rw [htrace]
    rw [hplanes] at hp
    rcases List.mem_append.mp hp with hp | hp
    · exact hstays _ (h.targets p hp hactive x hx)
    · -- the plane of a new video server has no target yet
      obtain rfl := hnew p hp
      cases hx

/-- **A login dials the address that the session holds**, or the session holds none. -/
theorem Pinned.login (h : s.Pinned) (hready : s.Ready) {cmd : LoginCmd} {answers : Answers}
    {events : List NetEvent} {action : DispatchAction}
    (hguard : ∀ c ∈ s.session.camera, ∀ addr ∈ admitted origin cmd answers.lookupHost,
      addr.ip = c.addr.ip)
    (hlogin : LoginStep origin s.session cmd answers events action) :
    ({ s with trace := s.trace ++ events }.applyAction action).Pinned := by
  cases hlogin with
  | rejected events hevents =>
    rw [applyAction_default]
    apply h.extend
    intro e he
    exact .inl (hevents e he)
  | dialed o host port addr _ _ hadmitted =>
    have hheld := h.held_of_admitted hready hguard hadmitted
    rw [applyAction_default]
    apply h.extend
    intro e he
    rcases List.mem_cons.mp he with rfl | he
    · exact .inl ⟨host, port, addr, rfl⟩
    · exact .inr ⟨.login, addr, List.mem_singleton.mp he, h.sameAddress hheld⟩
  | armed o host port camera result newVideo dials _ _ hadmitted _ _ _ hdials =>
    have hheld := h.held_of_admitted hready hguard hadmitted
    exact h.armed host port result (cmd.usr, cmd.pwd) newVideo hheld hdials

/-! ## A step -/

theorem Pinned.handle {msg : Message} {answers : Answers} (h : s.Pinned) (hsound : s.Sound)
    (hready : s.Ready) (hguard : resolvesSame origin s (.message msg answers))
    (hstep : HandleStep origin s msg answers s') : s'.Pinned := by
  cases hstep with
  | login cmd events action hcmd hlogin => exact h.login hready (hguard.2 cmd hcmd) hlogin
  | proxy events hevents =>
    apply h.extend
    intro e he
    obtain ⟨kind, camera, hcamera, rfl⟩ := hevents e he
    exact .inr ⟨kind, camera.addr, rfl, h.sameAddress (.inr (h.camera camera hcamera))⟩
  | openVideo i camera s' hcamera _ hplane =>
    apply h.onPlane _ hplane
    intro p p' hp'
    obtain ⟨session, hsession, rfl⟩ := Option.map_eq_some_iff.mp hp'
    constructor
    · exact VideoSession.step_active hsession
    · intro x hx
      rcases List.mem_cons.mp hx with rfl | hx
      · exact .inr (h.camera camera hcamera)
      · exact .inl hx
  | closeVideo i s' _ hplane => exact h.planeStep hplane
  | logout s' hdown =>
    have hlogout : s.logout.Pinned := ⟨h.checked, nofun, nofun, h.pinned, h.targets⟩
    have hsound' := sound_teardownVideo (s := s.logout) hsound.planes hsound.live hsound.port
      (fun _ => rfl) hdown
    exact (hlogout.teardownVideo hdown).settle hsound'

theorem Pinned.step {e : Event} (h : s.Pinned) (hsound : s.Sound)
    (hguard : resolvesSame origin s e) (hstep : s.step origin e = some s') : s'.Pinned := by
  cases step_cases hstep with
  | message msg answers s' hready hhandle => exact h.handle hsound hready hguard hhandle
  | disconnect s' hdown =>
    have hclose : s.close.Pinned := ⟨h.checked, h.camera, h.fresh, h.pinned, h.targets⟩
    exact hclose.teardownVideo hdown
  | advance i k s' hplane => exact (h.planeStep hplane).settle (hsound.planeStep hguard.1 hplane)
  | finish i t s' hplane => exact h.planeStep hplane
  | dial i t p addr hp hrunning htarget =>
    -- a plane with a running pipeline is active, and its targets are the held address
    have hactive := (hsound.planes p (List.mem_of_getElem? hp)).active_of_running hrunning
    have hheld := h.targets p (List.mem_of_getElem? hp) hactive _ htarget
    apply h.extend
    intro e he
    exact .inr ⟨.rtsp, addr, List.mem_singleton.mp he, h.sameAddress (.inr hheld)⟩

/-- **The camera address is pinned**: from an accepted login to the next logout every dial goes to
the address of that login, in every run in which the claims of a session with a camera resolve to
its address and no start is late. -/
theorem run_pinned {es : List Event} (h : Run (step origin) (resolvesSame origin) new es s) :
    Checked SameAddress s.trace := by
  have hinv : s.Sound ∧ s.Pinned := by
    apply h.invariant (I := fun s => s.Sound ∧ s.Pinned) _ ⟨sound_new, pinned_new⟩
    intro s e s' hs hguard hstep
    exact ⟨hs.1.step hguard.1 hstep, hs.2.step hs.1 hguard hstep⟩
  exact hinv.2.checked

/-- A login, a login that is answered by the same address, and a CGI request. -/
def relogin : List Event :=
  [.message sampleLogin (sampleAnswers 50 0), .message sampleLogin (sampleAnswers 50 0),
    .message sampleCgi (sampleAnswers 50 0)]

theorem run_pinned_relogin :
    ∃ s, Run (step samplePage) (resolvesSame samplePage) new relogin s ∧
      s.trace = sampleEvents 50 0 ++ sampleEvents 50 0 ++ [.dial .cgi (sampleAddr 50 88)] ∧
      Checked SameAddress s.trace := by
  have hexec : (exec (step samplePage) (resolvesSame samplePage) new relogin).map
      Connection.trace = some (sampleEvents 50 0 ++ sampleEvents 50 0 ++
        [.dial .cgi (sampleAddr 50 88)]) := by
    decide +kernel
  obtain ⟨s, hrun, htrace⟩ := Run.of_exec_map hexec
  exact ⟨s, hrun, htrace, run_pinned hrun⟩

/-- The name of the camera has another address at the second login. -/
def dnsChange : List Event :=
  [.message sampleLogin (sampleAnswers 50 0), .message sampleLogin (sampleAnswers 66 0)]

/-- **A login after a DNS change sends the credentials to the new address**, while the session is
pinned to the old one. -/
theorem relogin_redials :
    ∃ s, Run (step samplePage) free new dnsChange s ∧
      s.trace = sampleEvents 50 0 ++ sampleEvents 66 0 ∧ ¬ Checked SameAddress s.trace := by
  have hexec : (exec (step samplePage) free new dnsChange).map Connection.trace =
      some (sampleEvents 50 0 ++ sampleEvents 66 0) := by
    decide +kernel
  obtain ⟨s, hrun, htrace⟩ := Run.of_exec_map hexec
  refine ⟨s, hrun, htrace, fun h => ?_⟩
  have hsame := h (sampleEvents 50 0 ++ [.resolved "camera.lan".toList 88 (sampleAddr 66 88)])
    (.dial .login (sampleAddr 66 88)) _ (by rw [htrace, List.append_assoc]; rfl)
  have hip := hsame (sampleAddr 50 88) (by decide +kernel)
  exact absurd hip (by decide)

end Connection

end Fosipcore
