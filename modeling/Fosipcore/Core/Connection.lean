import Fosipcore.Library.Trace
import Fosipcore.Video.Session

/-!
# A connection with a browser

The browser claims a camera at login: the claim is resolved, checked against the origin of the
page, and dialed. A login that is answered arms the session with the camera, the credentials and
a video server, and later messages dial the camera of the session. A connection handles its
messages one at a time, while the pipelines of its video servers run on their own and dial RTSP.

What the handlers do on the network is recorded in a trace. Replies to the browser and the stream
type are not part of the model. The network calls of one handler make one step: the pipelines
that run beside it share nothing with it but the trace.

## Main definitions

* `NetEvent`: what a connection does on the network
* `SessionState`, `handleLogin`, `dispatchMessage`: the session and the message handlers
* `Plane`: a video server of the connection, with the dial targets of its pipelines
* `Connection`, `Connection.step`: the session, its planes and the trace

## Main results

* `handleLogin_cases`: what a login does on the network, and what it arms
* `Connection.Sound`: how the planes belong to the session, in every run
-/

namespace Fosipcore

open Machine Text Ip Trace

/-! ## Messages and answers -/

/-- What a dial is for. -/
inductive DialKind where
  | login
  | initInfo
  | cgi
  | cgiFullPath
  | snapshot
  | rtsp
  deriving DecidableEq

/-- What a connection does on the network, and the ends of logins and logouts. -/
inductive NetEvent where
  | resolved (host : Str) (port : UInt16) (addr : SocketAddr)
  | dial (kind : DialKind) (addr : SocketAddr)
  | loggedIn (addr : SocketAddr) (result : ℤ)
  | loggedOut
  deriving DecidableEq

/-- The login command: the claimed camera and the credentials. -/
structure LoginCmd where
  ip : Option Str
  usr : Str
  pwd : Str
  webPort : Option UInt16
  mediaPort : Option UInt16

/-- The CGI command, and its percent-decoding (empty where that is not a string). -/
structure CgiCmd where
  cgi : Str
  decoded : Str

/-- An inbound message, with the command that its `cmdObject` parses to. Hello, heartbeat, audio,
talk, record, the upgrade prompt and unknown ids neither read nor change the session. -/
inductive Message where
  | requestLogin (cmd : Option LoginCmd)
  | requestLoginAgain (cmd : Option LoginCmd)
  | requestLogout
  | requestCgi (cmd : Option CgiCmd)
  | requestSnap
  | requestOpenVideo
  | requestCloseVideo
  | other (msgId : ℕ)

/-- The command of a login message. -/
def Message.loginCmd : Message → Option LoginCmd
  | .requestLogin cmd => cmd
  | .requestLoginAgain cmd => cmd
  | _ => none

/-- What the world answers to a login: the resolver, the camera (the `result` of its answer, if
it can be reached), and the pool of live ports. -/
structure Answers where
  lookupHost : Option (List SocketAddr)
  login : Option ℤ
  alloc : Option UInt16

/-! ## The session -/

/-- Camera connection info, discovered from the client's login message. -/
structure CameraInfo where
  ip : Str
  httpPort : UInt16
  rtspPort : UInt16
  addr : SocketAddr
  deriving DecidableEq

/-- Per-session mutable state. The video server is named by its plane. -/
structure SessionState where
  camera : Option CameraInfo
  user : Option Str
  pwd : Option Str
  video : Option ℕ
  livePort : Option UInt16
  deriving DecidableEq

def SessionState.new : SessionState := ⟨none, none, none, none, none⟩

def SessionState.logout (session : SessionState) : SessionState :=
  { session with camera := none, user := none, pwd := none }

/-- Side-effect produced by message dispatch. -/
structure DispatchAction where
  newCamera : Option CameraInfo
  newAuth : Option (Str × Str)
  newVideo : Option UInt16
  deriving DecidableEq

/-- No side-effect. -/
def DispatchAction.default : DispatchAction := ⟨none, none, none⟩

/-! ## The handlers -/

/-- Allocate (or reuse) the session's live port, and whether it comes with a new video server. -/
def ensureSessionVideo (session : SessionState) (alloc : Option UInt16) :
    Option (UInt16 × Option UInt16) :=
  match session.livePort with
  | some port => some (port, none)
  | none => alloc.map fun port => (port, some port)

/-- The five queries that follow the first login of a page. -/
def gatherInitInfo (camera : SocketAddr) : List NetEvent :=
  List.replicate 5 (.dial .initInfo camera)

/-- The address of a claim that resolves to an admissible address and matches the origin of the
page. -/
def admitted (origin : Option OriginInfo) (cmd : LoginCmd)
    (lookupHost : Option (List SocketAddr)) : Option SocketAddr :=
  if origin.any fun o => o.matches (cmd.ip.getD []) (cmd.webPort.getD 88) then
    resolveCamera lookupHost (cmd.ip.getD []) (cmd.webPort.getD 88)
  else none

/-- Handle login: resolve and validate the claim, check the origin of the page, authenticate with
the camera, and arm the session. -/
def handleLogin (isRelogin : Bool) (origin : Option OriginInfo) (session : SessionState)
    (cmd : LoginCmd) (answers : Answers) : List NetEvent × DispatchAction :=
  let cameraIp := cmd.ip.getD []
  let httpPort := cmd.webPort.getD 88
  let rtspPort := cmd.mediaPort.getD 88
  match resolveCamera answers.lookupHost cameraIp httpPort with
  | none => ([], .default)
  | some pinned =>
    if origin.all fun o => !o.matches cameraIp httpPort then
      -- no origin, or that of another page: rejected before dialing anything
      ([.resolved cameraIp httpPort pinned], .default)
    else
      match answers.login, ensureSessionVideo session answers.alloc with
      | some result, some (_, newVideo) =>
        (.resolved cameraIp httpPort pinned :: .dial .login pinned ::
            ((if isRelogin then [] else gatherInitInfo pinned) ++ [.loggedIn pinned result]),
          ⟨some ⟨cameraIp, httpPort, rtspPort, pinned⟩, some (cmd.usr, cmd.pwd), newVideo⟩)
      -- the camera is unreachable, or no live port is left
      | _, _ => ([.resolved cameraIp httpPort pinned, .dial .login pinned], .default)

/-- Both forms of the CGI proxy, for a session with credentials and a camera. -/
def handleCgi (session : SessionState) (cmd : CgiCmd) : List NetEvent :=
  match session.user, session.pwd, session.camera with
  | some _, some _, some camera =>
    if "/cgi-bin/".toList.isPrefixOf cmd.decoded || "/CGIProxy".toList.isPrefixOf cmd.decoded then
      [.dial .cgiFullPath camera.addr]
    else [.dial .cgi camera.addr]
  | _, _, _ => []

def handleSnapshot (session : SessionState) : List NetEvent :=
  match session.user, session.pwd, session.camera with
  | some _, some _, some camera => [.dial .snapshot camera.addr]
  | _, _, _ => []

/-- What the handler of a message does on the network, and its side-effect on the session. The
video requests act on a plane and are part of the step. -/
def dispatchMessage (origin : Option OriginInfo) (session : SessionState) (msg : Message)
    (answers : Answers) : List NetEvent × DispatchAction :=
  match msg with
  | .requestLogin (some cmd) => handleLogin false origin session cmd answers
  | .requestLoginAgain (some cmd) => handleLogin true origin session cmd answers
  | .requestCgi (some cmd) => (handleCgi session cmd, .default)
  | .requestSnap => (handleSnapshot session, .default)
  | _ => ([], .default)

/-! ## Planes -/

/-- A video server of the connection, and where its pipelines dial: the pipeline of a start is
named by the call. -/
structure Plane where
  session : VideoSession
  targets : List (ℕ × SocketAddr)
  deriving DecidableEq

namespace Plane

def new : Plane := ⟨.new, []⟩

/-- An event of the plane. -/
def step (p : Plane) (e : VideoSession.Event) : Option Plane :=
  (p.session.step e).map fun session => { p with session := session }

theorem step_targets {p p' : Plane} {e : VideoSession.Event} (h : p.step e = some p') :
    p'.targets = p.targets := by
  obtain ⟨session, -, rfl⟩ := Option.map_eq_some_iff.mp h
  rfl

/-- `openVideo` spawns a start whose pipeline dials the pinned address at the RTSP port. -/
def openVideo (p : Plane) (camera : CameraInfo) : Option Plane :=
  (p.session.step (.openVideo ⟨asciiLower (trim camera.ip), camera.httpPort⟩)).map fun session =>
    ⟨session, (p.session.plane.calls.length, ⟨camera.addr.ip, camera.rtspPort⟩) :: p.targets⟩

/-- Where the pipeline `t` dials, while it runs. -/
def target (p : Plane) (t : ℕ) : Option SocketAddr :=
  if t ∈ p.session.plane.running then p.targets.lookup t else none

theorem target_cases {p : Plane} {t : ℕ} {addr : SocketAddr} (h : p.target t = some addr) :
    t ∈ p.session.plane.running ∧ (t, addr) ∈ p.targets := by
  unfold target at h
  split_ifs at h with hrunning
  obtain ⟨before, after, htargets, -⟩ := List.lookup_eq_some_iff.mp h
  rw [htargets]
  exact ⟨hrunning, List.mem_append_right _ List.mem_cons_self⟩

end Plane

/-! ## The connection -/

/-- The state of a connection: the session, the planes of its logins, what it did on the network,
whether a logout waits for its teardown, and whether the browser has gone. -/
structure Connection where
  session : SessionState
  planes : List Plane
  trace : List NetEvent
  loggingOut : Bool
  closed : Bool

namespace Connection

def new : Connection := ⟨.new, [], [], false, false⟩

/-- What can happen: a message, the end of the connection, a step of a call on a plane, the end
of a pipeline, or a pipeline that dials (at its start, or to reconnect). -/
inductive Event where
  | message (msg : Message) (answers : Answers)
  | disconnect
  | advance (p i : ℕ)
  | finish (p t : ℕ)
  | dial (p t : ℕ)

/-- No handler waits for the `stop` of a plane. -/
def Idle (s : Connection) : Prop := ∀ p ∈ s.planes, p.session.awaiting = none

instance (s : Connection) : Decidable s.Idle :=
  inferInstanceAs (Decidable (∀ p ∈ _, _))

/-- The connection reads the next message: the browser is there, and no handler is in progress. -/
def Ready (s : Connection) : Prop := s.closed = false ∧ s.loggingOut = false ∧ s.Idle

instance (s : Connection) : Decidable s.Ready :=
  inferInstanceAs (Decidable (_ ∧ _))

/-- A change of one plane. -/
def onPlane (s : Connection) (p : ℕ) (f : Plane → Option Plane) : Option Connection := do
  let plane ← s.planes[p]?
  let plane ← f plane
  some { s with planes := s.planes.set p plane }

/-- The session gives up its video server and its port; the `stop` of the plane begins. -/
def teardownVideo (s : Connection) : Option Connection :=
  let session := { s.session with video := none, livePort := none }
  match s.session.video, s.session.livePort with
  | some p, some _ => { s with session := session }.onPlane p (Plane.step · .logout)
  | _, _ => some { s with session := session }

/-- A logout ends when the `stop` of its teardown has returned. -/
def settle (s : Connection) : Connection :=
  if s.loggingOut = true ∧ s.Idle then
    { s with loggingOut := false, trace := s.trace ++ [.loggedOut] }
  else s

/-- Apply the side-effects of a message: a camera that is set stays, credentials are overwritten,
and a new live port comes with a new video server. -/
def applyAction (s : Connection) (action : DispatchAction) : Connection :=
  let session := { s.session with camera := s.session.camera.or action.newCamera }
  let session := match action.newAuth with
    | some (user, pwd) => { session with user := some user, pwd := some pwd }
    | none => session
  match action.newVideo with
  | some port =>
    { s with
      session := { session with livePort := some port, video := some s.planes.length }
      planes := s.planes ++ [.new] }
  | none => { s with session := session }

/-- The session forgets the camera and the credentials, and a teardown is to follow. -/
def logout (s : Connection) : Connection :=
  { s with session := s.session.logout, loggingOut := true }

/-- The browser has gone. -/
def close (s : Connection) : Connection := { s with closed := true }

/-- Handle a message. -/
def handle (origin : Option OriginInfo) (s : Connection) (msg : Message) (answers : Answers) :
    Option Connection :=
  match msg with
  | .requestOpenVideo =>
    match s.session.camera, s.session.video with
    | some camera, some p => s.onPlane p (Plane.openVideo · camera)
    | _, _ => some s
  | .requestCloseVideo =>
    match s.session.video with
    | some p => s.onPlane p (Plane.step · .closeVideo)
    | none => some s
  | .requestLogout => s.logout.teardownVideo.map settle
  | msg =>
    let (events, action) := dispatchMessage origin s.session msg answers
    some ({ s with trace := s.trace ++ events }.applyAction action)

def step (origin : Option OriginInfo) (s : Connection) : Event → Option Connection
  | .message msg answers => if s.Ready then s.handle origin msg answers else none
  | .disconnect => if s.Ready then s.close.teardownVideo else none
  | .advance p i => (s.onPlane p (Plane.step · (.advance i))).map settle
  | .finish p t => s.onPlane p (Plane.step · (.finish t))
  | .dial p t => do
    let plane ← s.planes[p]?
    let addr ← plane.target t
    some { s with trace := s.trace ++ [.dial .rtsp addr] }

/-! ## What a step does -/

end Connection

/-- What a login that arms the session does on the network. -/
def loginEvents (host : Str) (port : UInt16) (addr : SocketAddr) (dials : List NetEvent)
    (result : ℤ) : List NetEvent :=
  .resolved host port addr :: .dial .login addr :: (dials ++ [.loggedIn addr result])

/-- How a login can go: it is rejected after at most a resolve, or it dials the address of an
admitted claim, which arms the session if the camera answers and a live port is left. -/
inductive LoginStep (origin : Option OriginInfo) (session : SessionState) (cmd : LoginCmd)
    (answers : Answers) : List NetEvent → DispatchAction → Prop
  | rejected (events : List NetEvent) :
      (∀ e ∈ events, ∃ host port addr, e = .resolved host port addr) →
      LoginStep origin session cmd answers events .default
  | dialed (o : OriginInfo) (host : Str) (port : UInt16) (addr : SocketAddr) :
      origin = some o → o.matches host port = true →
      admitted origin cmd answers.lookupHost = some addr →
      LoginStep origin session cmd answers [.resolved host port addr, .dial .login addr] .default
  | armed (o : OriginInfo) (host : Str) (port : UInt16) (camera : CameraInfo) (result : ℤ)
      (newVideo : Option UInt16) (dials : List NetEvent) :
      origin = some o → o.matches host port = true →
      admitted origin cmd answers.lookupHost = some camera.addr →
      answers.login = some result →
      (session.livePort.isSome ∨ answers.alloc.isSome) →
      (newVideo.isSome → session.livePort = none) →
      (∀ e ∈ dials, e = .dial .initInfo camera.addr) →
      LoginStep origin session cmd answers (loginEvents host port camera.addr dials result)
        ⟨some camera, some (cmd.usr, cmd.pwd), newVideo⟩

theorem ensureSessionVideo_cases {session : SessionState} {alloc : Option UInt16} {port : UInt16}
    {newVideo : Option UInt16} (h : ensureSessionVideo session alloc = some (port, newVideo)) :
    (session.livePort.isSome ∨ alloc.isSome) ∧ (newVideo.isSome → session.livePort = none) := by
  unfold ensureSessionVideo at h
  cases hport : session.livePort with
  | some p =>
    simp only [hport, Option.some.injEq, Prod.mk.injEq] at h
    obtain ⟨-, rfl⟩ := h
    exact ⟨.inl rfl, nofun⟩
  | none =>
    rw [hport] at h
    obtain ⟨p, halloc, -⟩ := Option.map_eq_some_iff.mp h
    exact ⟨.inr (Option.isSome_of_eq_some halloc), fun _ => rfl⟩

/-- **What a login does.** -/
theorem handleLogin_cases {isRelogin : Bool} {origin : Option OriginInfo} {session : SessionState}
    {cmd : LoginCmd} {answers : Answers} {events : List NetEvent} {action : DispatchAction}
    (h : handleLogin isRelogin origin session cmd answers = (events, action)) :
    LoginStep origin session cmd answers events action := by
  unfold handleLogin at h
  dsimp only at h
  cases hresolve : resolveCamera answers.lookupHost (cmd.ip.getD []) (cmd.webPort.getD 88) with
  | none =>
    simp only [hresolve, Prod.mk.injEq] at h
    obtain ⟨rfl, rfl⟩ := h
    exact .rejected [] nofun
  | some addr =>
    simp only [hresolve] at h
    by_cases horigin : origin.all fun o => !o.matches (cmd.ip.getD []) (cmd.webPort.getD 88)
    · rw [if_pos horigin] at h
      obtain ⟨rfl, rfl⟩ := Prod.mk.inj h
      apply LoginStep.rejected
      intro e he
      exact ⟨_, _, _, List.mem_singleton.mp he⟩
    · rw [if_neg horigin] at h
      cases origin with
      | none => exact absurd rfl horigin
      | some o =>
        have hmatch : o.matches (cmd.ip.getD []) (cmd.webPort.getD 88) = true := by
          simpa using horigin
        have hadmitted : admitted (some o) cmd answers.lookupHost = some addr := by
          rw [admitted, Option.any_some, if_pos hmatch, hresolve]
        cases hlogin : answers.login with
        | none =>
          simp only [hlogin, Prod.mk.injEq] at h
          obtain ⟨rfl, rfl⟩ := h
          exact .dialed o _ _ addr rfl hmatch hadmitted
        | some result =>
          cases hensure : ensureSessionVideo session answers.alloc with
          | none =>
            simp only [hlogin, hensure, Prod.mk.injEq] at h
            obtain ⟨rfl, rfl⟩ := h
            exact .dialed o _ _ addr rfl hmatch hadmitted
          | some video =>
            simp only [hlogin, hensure, Prod.mk.injEq] at h
            obtain ⟨rfl, rfl⟩ := h
            obtain ⟨halloc, hkept⟩ := ensureSessionVideo_cases hensure
            apply LoginStep.armed o _ _ ⟨_, _, _, addr⟩ result _ _ rfl hmatch hadmitted hlogin
              halloc hkept
            intro e he
            cases isRelogin with
            | true => cases he
            | false => exact List.eq_of_mem_replicate he

/-- A message that is no login changes nothing in the session, and dials nothing but the camera of
the session. -/
theorem dispatchMessage_cases {origin : Option OriginInfo} {session : SessionState}
    {msg : Message} {answers : Answers} {events : List NetEvent} {action : DispatchAction}
    (h : dispatchMessage origin session msg answers = (events, action)) :
    (∃ cmd, msg.loginCmd = some cmd ∧ LoginStep origin session cmd answers events action) ∨
    (action = .default ∧ ∀ e ∈ events, ∃ kind camera,
      session.camera = some camera ∧ e = .dial kind camera.addr) := by
  have hnone : ([], DispatchAction.default) = (events, action) → action = .default ∧
      ∀ e ∈ events, ∃ kind camera, session.camera = some camera ∧ e = .dial kind camera.addr := by
    rintro ⟨⟩
    exact ⟨rfl, nofun⟩
  cases msg with
  | requestLogin cmd =>
    cases cmd with
    | none => exact .inr (hnone h)
    | some cmd => exact .inl ⟨cmd, rfl, handleLogin_cases h⟩
  | requestLoginAgain cmd =>
    cases cmd with
    | none => exact .inr (hnone h)
    | some cmd => exact .inl ⟨cmd, rfl, handleLogin_cases h⟩
  | requestCgi cmd =>
    cases cmd with
    | none => exact .inr (hnone h)
    | some cmd =>
      obtain ⟨rfl, rfl⟩ := Prod.mk.inj h
      refine .inr ⟨rfl, fun e he => ?_⟩
      unfold handleCgi at he
      split at he
      · rename_i camera _ _ hcamera
        split_ifs at he
        · exact ⟨.cgiFullPath, camera, hcamera, List.mem_singleton.mp he⟩
        · exact ⟨.cgi, camera, hcamera, List.mem_singleton.mp he⟩
      · cases he
  | requestSnap =>
    obtain ⟨rfl, rfl⟩ := Prod.mk.inj h
    refine .inr ⟨rfl, fun e he => ?_⟩
    unfold handleSnapshot at he
    split at he
    · rename_i camera _ _ hcamera
      exact ⟨.snapshot, camera, hcamera, List.mem_singleton.mp he⟩
    · cases he
  | requestLogout | requestOpenVideo | requestCloseVideo | other msgId => exact .inr (hnone h)

namespace Connection

theorem onPlane_cases {s s' : Connection} {i : ℕ} {f : Plane → Option Plane}
    (h : s.onPlane i f = some s') :
    ∃ p p', s.planes[i]? = some p ∧ f p = some p' ∧
      s' = { s with planes := s.planes.set i p' } := by
  obtain ⟨p, hp, h⟩ := Option.bind_eq_some_iff.mp h
  obtain ⟨p', hp', h⟩ := Option.bind_eq_some_iff.mp h
  exact ⟨p, p', hp, hp', (Option.some.inj h).symm⟩

/-- The planes after a change of one of them. -/
theorem getElem?_set_cases {planes : List Plane} {i j : ℕ} {p' q : Plane}
    (h : (planes.set i p')[j]? = some q) : i = j ∧ p' = q ∨ i ≠ j ∧ planes[j]? = some q := by
  by_cases hij : i = j
  · obtain rfl := hij
    have hlt := (List.getElem?_eq_some_iff.mp h).1
    rw [List.getElem?_set_self (by rwa [List.length_set] at hlt)] at h
    exact .inl ⟨rfl, Option.some.inj h⟩
  · rw [List.getElem?_set_ne hij] at h
    exact .inr ⟨hij, h⟩

theorem mem_planes_onPlane {s s' : Connection} {i : ℕ} {f : Plane → Option Plane} {q : Plane}
    (h : s.onPlane i f = some s') (hq : q ∈ s'.planes) :
    q ∈ s.planes ∨ ∃ p ∈ s.planes, f p = some q := by
  obtain ⟨p, p', hp, hp', rfl⟩ := onPlane_cases h
  rcases List.mem_or_eq_of_mem_set hq with hq | rfl
  · exact .inl hq
  · exact .inr ⟨p, List.mem_of_getElem? hp, hp'⟩

/-- **What a teardown does**: the session has no video server and no port left, and if it had
both, the plane of the video server begins its `stop`. -/
theorem teardownVideo_cases {s s' : Connection} (h : s.teardownVideo = some s') :
    ∃ planes, s' = { s with
        session := { s.session with video := none, livePort := none }
        planes := planes } ∧
      ((planes = s.planes ∧ (s.session.video = none ∨ s.session.livePort = none)) ∨
        ∃ i p p', s.session.video = some i ∧ s.planes[i]? = some p ∧ p.step .logout = some p' ∧
          planes = s.planes.set i p') := by
  unfold teardownVideo at h
  cases hvideo : s.session.video with
  | none =>
    rw [hvideo] at h
    exact ⟨s.planes, (Option.some.inj h).symm, .inl ⟨rfl, .inl rfl⟩⟩
  | some i =>
    cases hport : s.session.livePort with
    | none =>
      simp only [hvideo, hport] at h
      exact ⟨s.planes, (Option.some.inj h).symm, .inl ⟨rfl, .inr rfl⟩⟩
    | some port =>
      simp only [hvideo, hport] at h
      obtain ⟨p, p', hp, hp', rfl⟩ := onPlane_cases h
      exact ⟨_, rfl, .inr ⟨i, p, p', rfl, hp, hp', rfl⟩⟩

theorem mem_planes_teardownVideo {s s' : Connection} {q : Plane} (h : s.teardownVideo = some s')
    (hq : q ∈ s'.planes) : q ∈ s.planes ∨ ∃ p ∈ s.planes, p.step .logout = some q := by
  obtain ⟨planes, rfl, ⟨rfl, -⟩ | ⟨i, p, p', -, hp, hp', rfl⟩⟩ := teardownVideo_cases h
  · exact .inl hq
  · rcases List.mem_or_eq_of_mem_set hq with hq | rfl
    · exact .inl hq
    · exact .inr ⟨p, List.mem_of_getElem? hp, hp'⟩

theorem applyAction_default (s : Connection) : s.applyAction .default = s := by
  simp only [applyAction, DispatchAction.default, Option.or_none]

/-- Arming a session keeps a camera that is set, the trace and the planes, and may add a plane. -/
theorem applyAction_armed (s : Connection) (camera : CameraInfo) (auth : Str × Str)
    (newVideo : Option UInt16) :
    ∃ planes, (s.applyAction ⟨some camera, some auth, newVideo⟩).planes = s.planes ++ planes ∧
      (∀ p ∈ planes, p = .new) ∧
      (s.applyAction ⟨some camera, some auth, newVideo⟩).trace = s.trace ∧
      (s.applyAction ⟨some camera, some auth, newVideo⟩).session.camera =
        s.session.camera.or (some camera) := by
  cases newVideo with
  | none => exact ⟨[], (List.append_nil _).symm, nofun, rfl, rfl⟩
  | some port => exact ⟨[.new], rfl, fun _ => List.mem_singleton.mp, rfl, rfl⟩

/-- What the handling of a message does: a login, a proxied request, a change of the plane of the
session's video server, or a logout. -/
inductive HandleStep (origin : Option OriginInfo) (s : Connection) (msg : Message)
    (answers : Answers) : Connection → Prop
  | login (cmd : LoginCmd) (events : List NetEvent) (action : DispatchAction) :
      msg.loginCmd = some cmd → LoginStep origin s.session cmd answers events action →
      HandleStep origin s msg answers ({ s with trace := s.trace ++ events }.applyAction action)
  | proxy (events : List NetEvent) :
      (∀ e ∈ events, ∃ kind camera, s.session.camera = some camera ∧
        e = .dial kind camera.addr) →
      HandleStep origin s msg answers { s with trace := s.trace ++ events }
  | openVideo (i : ℕ) (camera : CameraInfo) (s' : Connection) :
      s.session.camera = some camera → s.session.video = some i →
      s.onPlane i (Plane.openVideo · camera) = some s' → HandleStep origin s msg answers s'
  | closeVideo (i : ℕ) (s' : Connection) :
      s.session.video = some i → s.onPlane i (Plane.step · .closeVideo) = some s' →
      HandleStep origin s msg answers s'
  | logout (s' : Connection) :
      s.logout.teardownVideo = some s' → HandleStep origin s msg answers s'.settle

/-- Nothing happens. -/
theorem HandleStep.refl {origin : Option OriginInfo} {s : Connection} {msg : Message}
    {answers : Answers} : HandleStep origin s msg answers s := by
  have hproxy : HandleStep origin s msg answers { s with trace := s.trace ++ [] } :=
    .proxy [] nofun
  rwa [List.append_nil] at hproxy

/-- **What the handling of a message does.** -/
theorem handle_cases {origin : Option OriginInfo} {s s' : Connection} {msg : Message}
    {answers : Answers} (h : s.handle origin msg answers = some s') :
    HandleStep origin s msg answers s' := by
  have hdispatch : ∀ events action,
      dispatchMessage origin s.session msg answers = (events, action) →
      HandleStep origin s msg answers
        ({ s with trace := s.trace ++ events }.applyAction action) := by
    intro events action heq
    rcases dispatchMessage_cases heq with ⟨cmd, hcmd, hlogin⟩ | ⟨rfl, hevents⟩
    · exact .login cmd events action hcmd hlogin
    · rw [applyAction_default]
      exact .proxy events hevents
  cases msg with
  | requestOpenVideo =>
    unfold Connection.handle at h
    dsimp only at h
    split at h
    · rename_i camera i hcamera hvideo
      exact .openVideo i camera s' hcamera hvideo h
    · obtain rfl := Option.some.inj h
      exact .refl
  | requestCloseVideo =>
    unfold Connection.handle at h
    dsimp only at h
    split at h
    · rename_i i hvideo
      exact .closeVideo i s' hvideo h
    · obtain rfl := Option.some.inj h
      exact .refl
  | requestLogout =>
    obtain ⟨s'', hs'', rfl⟩ := Option.map_eq_some_iff.mp h
    exact .logout s'' hs''
  | requestLogin _ | requestLoginAgain _ | requestCgi _ | requestSnap | other _ =>
    obtain rfl := Option.some.inj h
    exact hdispatch _ _ rfl

/-- What an event does: the handling of a message, a teardown, a step of a plane (that may end a
logout), or a dial of a running pipeline. -/
inductive StepTo (origin : Option OriginInfo) (s : Connection) : Event → Connection → Prop
  | message (msg : Message) (answers : Answers) (s' : Connection) :
      s.Ready → HandleStep origin s msg answers s' → StepTo origin s (.message msg answers) s'
  | disconnect (s' : Connection) :
      s.close.teardownVideo = some s' → StepTo origin s .disconnect s'
  | advance (i k : ℕ) (s' : Connection) :
      s.onPlane i (Plane.step · (.advance k)) = some s' →
      StepTo origin s (.advance i k) s'.settle
  | finish (i t : ℕ) (s' : Connection) :
      s.onPlane i (Plane.step · (.finish t)) = some s' → StepTo origin s (.finish i t) s'
  | dial (i t : ℕ) (p : Plane) (addr : SocketAddr) :
      s.planes[i]? = some p → t ∈ p.session.plane.running → (t, addr) ∈ p.targets →
      StepTo origin s (.dial i t) { s with trace := s.trace ++ [.dial .rtsp addr] }

/-- **What a step can do.** -/
theorem step_cases {origin : Option OriginInfo} {s s' : Connection} {e : Event}
    (h : s.step origin e = some s') : StepTo origin s e s' := by
  cases e with
  | message msg answers =>
    rw [step] at h
    split_ifs at h with hready
    exact .message msg answers s' hready (handle_cases h)
  | disconnect =>
    rw [step] at h
    split_ifs at h
    exact .disconnect s' h
  | advance i k =>
    obtain ⟨s'', hs'', rfl⟩ := Option.map_eq_some_iff.mp h
    exact .advance i k s'' hs''
  | finish i t => exact .finish i t s' h
  | dial i t =>
    obtain ⟨p, hp, h⟩ := Option.bind_eq_some_iff.mp h
    obtain ⟨addr, haddr, h⟩ := Option.bind_eq_some_iff.mp h
    obtain rfl := Option.some.inj h
    obtain ⟨hrunning, htarget⟩ := Plane.target_cases haddr
    exact .dial i t p addr hp hrunning htarget

/-- A logout waits, or it ends and is recorded. -/
theorem settle_cases (s : Connection) :
    s.settle = s ∨
      (s.loggingOut = true ∧ s.Idle ∧
        s.settle = { s with loggingOut := false, trace := s.trace ++ [.loggedOut] }) := by
  unfold settle
  split_ifs with hdone
  · exact .inr ⟨hdone.1, hdone.2, rfl⟩
  · exact .inl rfl

/-! ## The planes of a session -/

/-- No start of a plane stores its handle over that of a running pipeline, and the `stop` of a
teardown takes the handle only when every start has returned. -/
def keepsHandles (s : Connection) : Event → Prop
  | .advance i k => ∀ p ∈ s.planes[i]?, p.session.keepsHandles (.advance k)
  | _ => True

instance (s : Connection) : (e : Event) → Decidable (s.keepsHandles e)
  | .advance _ _ => inferInstanceAs (Decidable (∀ p ∈ _, _))
  | .message _ _ | .disconnect | .finish _ _ | .dial _ _ => .isTrue trivial

/-- **How the planes belong to the session**: only the plane of the session's video server has one,
and a session with a video server has a live port and a camera. -/
structure Sound (s : Connection) : Prop where
  planes : ∀ p ∈ s.planes, p.session.Inv
  live : ∀ i p, s.planes[i]? = some p → p.session.video = true → s.session.video = some i
  port : s.session.video.isSome → s.session.livePort.isSome
  camera : s.session.video.isSome → s.session.camera.isSome
  loggingOut : s.loggingOut = true → s.session.camera = none

theorem sound_new : new.Sound := ⟨nofun, nofun, nofun, nofun, nofun⟩

/-- A change of one plane that keeps its invariant and gives it no video server. -/
theorem Sound.onPlane {s s' : Connection} (h : s.Sound) {i : ℕ} {f : Plane → Option Plane}
    (hf : ∀ p p', s.planes[i]? = some p → f p = some p' →
      p'.session.Inv ∧ (p'.session.video = true → p.session.video = true))
    (hstep : s.onPlane i f = some s') : s'.Sound := by
  obtain ⟨p, p', hp, hp', rfl⟩ := onPlane_cases hstep
  obtain ⟨hinv, hvideo⟩ := hf p p' hp hp'
  refine ⟨?_, ?_, h.port, h.camera, h.loggingOut⟩
  · intro q hq
    rcases List.mem_or_eq_of_mem_set hq with hq | rfl
    · exact h.planes q hq
    · exact hinv
  · intro j q hq hqvideo
    rcases getElem?_set_cases hq with ⟨rfl, rfl⟩ | ⟨-, hq⟩
    · exact h.live i p hp (hvideo hqvideo)
    · exact h.live j q hq hqvideo

theorem Sound.settle {s : Connection} (h : s.Sound) : s.settle.Sound := by
  rcases s.settle_cases with heq | ⟨-, -, heq⟩
  · rwa [heq]
  · rw [heq]
    exact ⟨h.planes, h.live, h.port, h.camera, nofun⟩

theorem Sound.trace {s : Connection} (h : s.Sound) (trace : List NetEvent) :
    { s with trace := trace }.Sound := ⟨h.planes, h.live, h.port, h.camera, h.loggingOut⟩

/-- A teardown leaves no plane with a video server. -/
theorem sound_teardownVideo {s s' : Connection} (hplanes : ∀ p ∈ s.planes, p.session.Inv)
    (hlive : ∀ i p, s.planes[i]? = some p → p.session.video = true → s.session.video = some i)
    (hport : s.session.video.isSome → s.session.livePort.isSome)
    (hlogout : s.loggingOut = true → s.session.camera = none)
    (h : s.teardownVideo = some s') : s'.Sound := by
  obtain ⟨planes, rfl, hcases⟩ := teardownVideo_cases h
  rcases hcases with ⟨rfl, hoff⟩ | ⟨i, p, p', hvideo, hp, hstep, rfl⟩
  · refine ⟨hplanes, ?_, nofun, nofun, hlogout⟩
    intro j q hq hqvideo
    have hj := hlive j q hq hqvideo
    rcases hoff with hoff | hoff
    · rw [hoff] at hj
      cases hj
    · have hsome := hport (Option.isSome_of_eq_some hj)
      rw [hoff] at hsome
      cases hsome
  · obtain ⟨session, hsession, rfl⟩ := Option.map_eq_some_iff.mp hstep
    refine ⟨?_, ?_, nofun, nofun, hlogout⟩
    · intro q hq
      rcases List.mem_or_eq_of_mem_set hq with hq | rfl
      · exact hplanes q hq
      · have hinv := hplanes p (List.mem_of_getElem? hp)
        exact hinv.step (e := .logout) trivial hsession
    · intro j q hq hqvideo
      rcases getElem?_set_cases hq with ⟨-, rfl⟩ | ⟨hij, hq⟩
      · rw [VideoSession.step_logout hsession] at hqvideo
        cases hqvideo
      · have hj := hlive j q hq hqvideo
        exact absurd (Option.some.inj (hvideo.symm.trans hj)) hij

/-- Arming the session. -/
theorem Sound.applyAction {s : Connection} (h : s.Sound) (hready : s.loggingOut = false)
    (camera : CameraInfo) (auth : Str × Str) {newVideo : Option UInt16}
    (hnew : newVideo.isSome → s.session.livePort = none) :
    (s.applyAction ⟨some camera, some auth, newVideo⟩).Sound := by
  have hcamera : (s.session.camera.or (some camera)).isSome := by
    cases s.session.camera <;> rfl
  have hlogout : s.loggingOut = true → s.session.camera.or (some camera) = none := by
    rw [hready]
    exact nofun
  cases newVideo with
  | none => exact ⟨h.planes, h.live, h.port, fun _ => hcamera, hlogout⟩
  | some port =>
    refine ⟨?_, ?_, fun _ => rfl, fun _ => hcamera, hlogout⟩
    · intro p hp
      rcases List.mem_append.mp hp with hp | hp
      · exact h.planes p hp
      · obtain rfl := List.mem_singleton.mp hp
        exact VideoSession.inv_new
    · intro i p hp hvideo
      by_cases hi : i < s.planes.length
      · -- an old plane has no video server: the session had no live port
        have hp' : s.planes[i]? = some p := by
          rw [← hp]
          exact (List.getElem?_append_left hi).symm
        have hsome := h.port (Option.isSome_of_eq_some (h.live i p hp' hvideo))
        rw [hnew rfl] at hsome
        cases hsome
      · have hlt := (List.getElem?_eq_some_iff.mp hp).1
        have hi' : s.planes.length = i := by
          have hlen : i < (s.planes ++ [Plane.new]).length := hlt
          rw [List.length_append, List.length_singleton] at hlen
          omega
        exact congrArg some hi'

/-- A step of a plane that is no teardown. -/
theorem Sound.planeStep {s s' : Connection} (h : s.Sound) {i : ℕ} {e : VideoSession.Event}
    (hguard : ∀ p, s.planes[i]? = some p → p.session.keepsHandles e)
    (hstep : s.onPlane i (Plane.step · e) = some s') : s'.Sound := by
  apply h.onPlane _ hstep
  intro p p' hp hp'
  obtain ⟨session, hsession, rfl⟩ := Option.map_eq_some_iff.mp hp'
  constructor
  · exact (h.planes p (List.mem_of_getElem? hp)).step (hguard p hp) hsession
  · exact VideoSession.step_video hsession

/-- Handling a message. -/
theorem Sound.handle {origin : Option OriginInfo} {s s' : Connection} {msg : Message}
    {answers : Answers} (h : s.Sound) (hready : s.Ready)
    (hstep : HandleStep origin s msg answers s') : s'.Sound := by
  cases hstep with
  | login cmd events action _ hlogin =>
    cases hlogin with
    | rejected events _ | dialed o host port addr _ _ _ =>
      rw [applyAction_default]
      exact h.trace _
    | armed o host port camera result newVideo dials _ _ _ _ _ hnew _ =>
      apply Sound.applyAction (h.trace _)
      · exact hready.2.1
      · exact hnew
  | proxy events _ => exact h.trace _
  | openVideo i camera s' _ _ hplane =>
    apply h.onPlane _ hplane
    intro p p' hp hp'
    obtain ⟨session, hsession, rfl⟩ := Option.map_eq_some_iff.mp hp'
    constructor
    · have hinv := h.planes p (List.mem_of_getElem? hp)
      exact hinv.step (e := .openVideo _) trivial hsession
    · exact VideoSession.step_video hsession
  | closeVideo i s' _ hplane => exact h.planeStep (e := .closeVideo) (fun _ _ => trivial) hplane
  | logout s' hdown =>
    have hsound := sound_teardownVideo (s := s.logout) h.planes h.live h.port (fun _ => rfl) hdown
    exact hsound.settle

/-- **The planes belong to the session in every run** that keeps the handles. -/
theorem Sound.step {origin : Option OriginInfo} {s s' : Connection} {e : Event} (h : s.Sound)
    (hguard : s.keepsHandles e) (hstep : s.step origin e = some s') : s'.Sound := by
  cases step_cases hstep with
  | message msg answers s' hready hhandle => exact h.handle hready hhandle
  | disconnect s' hdown =>
    exact sound_teardownVideo (s := s.close) h.planes h.live h.port h.loggingOut hdown
  | advance i k s' hplane => exact (h.planeStep hguard hplane).settle
  | finish i t s' hplane => exact h.planeStep (e := .finish t) (fun _ _ => trivial) hplane
  | dial i t p addr _ _ _ => exact h.trace _

end Connection

end Fosipcore
