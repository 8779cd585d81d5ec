import Fosipcore.Proxy.Cgi
import Fosipcore.Proxy.Redact
import Fosipcore.Video.Ports

/-!
# The login handler

A login from the message to the session: the command is read, the claim is resolved and checked, the
camera is asked, and the action that comes out is applied to the session. The action carries the
responses, and a new video server with its port and its listener.

The handler agrees with the one of `Core.Connection`, which has neither the responses nor the pool.

## Main definitions

* `World`, `State`, `Action`: what a login reads and changes, and what it comes to
* `handleLogin`, `dispatchLogin`, `processLogin`: the handler, and the application of its action
* `Answered`: the logins that come to an answer of the camera

## Main results

* `processLogin_answered`: what becomes of an answer of the camera
* `processLogin_refines`: processing a login refines what a connection does
-/

namespace Fosipcore

namespace Login

open Text
open Cgi hiding gatherInitInfo

/-- What the world answers to a login: the resolver, the camera, and the throwaway binds. -/
structure World where
  lookupHost : Option (List SocketAddr)
  login : Option HttpResponse
  query : Query → Option HttpResponse
  probe : ℕ → UInt16 → Bool

/-- The session with its listener, the pool of live ports, and the number of video servers so far. A
video server and its listener are named by that number. -/
structure State where
  session : SessionState
  videoListener : Option ℕ
  pool : PortPool
  servers : ℕ

/-- Side-effect produced by a login, with its responses. A new live port comes with a video server
and a listener. -/
structure Action where
  newCamera : Option CameraInfo
  newAuth : Option (Str × Str)
  newVideo : Option UInt16
  responses : List Str

/-- No side-effect. -/
def Action.default : Action := ⟨none, none, none, []⟩

/-- The side-effect without the responses. -/
def Action.effect (action : Action) : DispatchAction :=
  ⟨action.newCamera, action.newAuth, action.newVideo⟩

/-! ## The handler -/

/-- `RESPONSE_REQUEST_LOGIN` or `RESPONSE_REQUEST_LOGIN_AGAIN` -/
def responseMsgId (isRelogin : Bool) : ℕ := if isRelogin then 50026 else 50001

/-- The text of a login response. -/
def loginResponse (isRelogin : Bool) (resp : CgiResponse) : Str :=
  (withResponse (responseMsgId isRelogin) resp.fields).print

/-- One `result: -1` response and no camera or credentials. -/
def failedLoginAction (isRelogin : Bool) (reason : Str) : Action :=
  { Action.default with responses := [loginResponse isRelogin ⟨-1, failureXml reason⟩] }

/-- Allocate (or reuse) the session's live port. -/
def ensureSessionVideo (state : State) (probe : ℕ → UInt16 → Bool) :
    Option (UInt16 × Option UInt16) × PortPool :=
  match state.session.livePort with
  | some port => (some (port, none), state.pool)
  | none =>
    -- a new port comes with a new video server
    let (port, pool) := state.pool.alloc probe
    (port.map fun port => (port, some port), pool)

/-- The error of a `cmdObject` that is no login command. -/
def cmdObjectError (cmdObject : Option Json) : Str :=
  "login cmdObject error: ".toList ++ match cmdObject with
    | some v => "present but parse failed: ".toList ++ redactCreds v.print
    | none => "cmdObject field missing".toList

/-- The responses of a login that arms the session: product info only where the camera has
answered with one. -/
def loginResponses (isRelogin : Bool) (world : World) (livePort : UInt16) (resp : CgiResponse) :
    List Str :=
  let (productXml, initInfo) : Option Str × InitInfo :=
    if isRelogin then (none, { livePort := livePort })
    else Cgi.gatherInitInfo world.query livePort
  loginResponse isRelogin resp ::
    ((productXml.map fun xml => (withResponse 50008 (ProductInfo.fields ⟨xml⟩)).print).toList ++
      [(withResponse 50009 initInfo.fields).print])

/-- Handle login. -/
def handleLogin (isRelogin : Bool) (origin : Option OriginInfo) (state : State)
    (cmdObject : Option Json) (world : World) : Except Str Action × PortPool :=
  match cmdObject.bind LoginCmd.fromValue with
  | none => (.error (cmdObjectError cmdObject), state.pool)
  | some cmd =>
    let cameraIp := cmd.ip.getD []
    let httpPort := cmd.webPort.getD 88
    let rtspPort := cmd.mediaPort.getD 88
    let fail reason := (.ok (failedLoginAction isRelogin reason), state.pool)
    match resolveCamera world.lookupHost cameraIp httpPort with
    | none => fail "camera unreachable".toList
    | some pinned =>
      match origin with
      | none => fail "no origin".toList
      | some origin =>
        -- the claim has to be the page the connection came from
        if !origin.matches cameraIp httpPort then
          fail "origin does not match claimed camera".toList
        else
          match world.login.map cgiResult with
          | none => fail "camera unreachable".toList
          -- whatever the result of the answer
          | some resp =>
            match ensureSessionVideo state world.probe with
            | (none, pool) =>
              (.ok (failedLoginAction isRelogin "too many concurrent video sessions".toList), pool)
            | (some (livePort, newVideo), pool) =>
              (.ok ⟨some ⟨cameraIp, httpPort, rtspPort, pinned⟩, some (cmd.usr, cmd.pwd), newVideo,
                loginResponses isRelogin world livePort resp⟩, pool)

/-- The action of a login message, and what is logged as an error where there is none. -/
def dispatchLogin (isRelogin : Bool) (origin : Option OriginInfo) (state : State)
    (cmdObject : Option Json) (world : World) : Action × PortPool × Option Str :=
  match handleLogin isRelogin origin state cmdObject world with
  | (.ok action, pool) => (action, pool, none)
  | (.error e, pool) => (.default, pool, some ("Login error: ".toList ++ redactCreds e))

/-- Apply side-effects: a camera that is set stays. -/
def State.apply (state : State) (action : Action) (pool : PortPool) : State :=
  let session := { state.session with camera := state.session.camera.or action.newCamera }
  let session := match action.newAuth with
    | some (user, pwd) => { session with user := some user, pwd := some pwd }
    | none => session
  match action.newVideo with
  | some port =>
    { session := { session with livePort := some port, video := some state.servers }
      videoListener := some state.servers
      pool := pool
      servers := state.servers + 1 }
  | none => { state with session := session, pool := pool }

/-- Process a login message: the state after it, and the responses. -/
def processLogin (isRelogin : Bool) (origin : Option OriginInfo) (state : State)
    (cmdObject : Option Json) (world : World) : State × List Str :=
  let (action, pool, _) := dispatchLogin isRelogin origin state cmdObject world
  (state.apply action pool, action.responses)

/-! ## What the handler does -/

variable {isRelogin : Bool} {origin : Option OriginInfo} {state : State} {cmdObject : Option Json}
  {world : World}

/-- The command is read, its claim is admitted, and the camera answers. -/
def Answered (origin : Option OriginInfo) (cmdObject : Option Json) (world : World)
    (cmd : LoginCmd) (pinned : SocketAddr) (resp : HttpResponse) : Prop :=
  cmdObject.bind LoginCmd.fromValue = some cmd ∧
    admitted origin cmd world.lookupHost = some pinned ∧ world.login = some resp

/-- The action of a login that arms the session. -/
def armedAction (isRelogin : Bool) (world : World) (cmd : LoginCmd) (pinned : SocketAddr)
    (resp : HttpResponse) (livePort : UInt16) (newVideo : Option UInt16) : Action :=
  ⟨some ⟨cmd.ip.getD [], cmd.webPort.getD 88, cmd.mediaPort.getD 88, pinned⟩,
    some (cmd.usr, cmd.pwd), newVideo,
    loginResponses isRelogin world livePort (cgiResult resp)⟩

/-- **An answer of the camera** arms the session, whatever its result, if there is a live port. -/
theorem handleLogin_answered {cmd : LoginCmd} {pinned : SocketAddr} {resp : HttpResponse}
    (h : Answered origin cmdObject world cmd pinned resp) :
    handleLogin isRelogin origin state cmdObject world =
      match ensureSessionVideo state world.probe with
      | (none, pool) =>
        (.ok (failedLoginAction isRelogin "too many concurrent video sessions".toList), pool)
      | (some (livePort, newVideo), pool) =>
        (.ok (armedAction isRelogin world cmd pinned resp livePort newVideo), pool) := by
  obtain ⟨hcmd, hadmitted, hlogin⟩ := h
  rw [admitted] at hadmitted
  split_ifs at hadmitted with horigin
  cases origin with
  | none => cases horigin
  | some o =>
    -- the claim is that of the page, so only the answer and the port are left to decide
    have hmatches : o.matches (cmd.ip.getD []) (cmd.webPort.getD 88) = true := horigin
    simp only [handleLogin, hcmd, hadmitted, hmatches, hlogin, Option.map_some, Bool.not_true,
      Bool.false_eq_true, if_false]
    rfl

/-- An answer of the camera, for a message that is processed. -/
theorem processLogin_answered (isRelogin : Bool) (state : State) {cmd : LoginCmd}
    {pinned : SocketAddr} {resp : HttpResponse}
    (h : Answered origin cmdObject world cmd pinned resp) :
    processLogin isRelogin origin state cmdObject world =
      match ensureSessionVideo state world.probe with
      | (none, pool) =>
        ({ state with pool := pool },
          [loginResponse isRelogin ⟨-1, failureXml "too many concurrent video sessions".toList⟩])
      | (some (livePort, newVideo), pool) =>
        (state.apply (armedAction isRelogin world cmd pinned resp livePort newVideo) pool,
          loginResponses isRelogin world livePort (cgiResult resp)) := by
  rw [processLogin, dispatchLogin, handleLogin_answered h]
  rcases ensureSessionVideo state world.probe with ⟨_ | ⟨livePort, newVideo⟩, pool⟩
  · simp only [failedLoginAction, State.apply, Action.default, Option.or_none]
  · rfl

/-! ## The handler of a connection -/

/-- What a connection sees of the world. -/
def answers (state : State) (world : World) : Answers :=
  ⟨world.lookupHost, world.login.map fun resp => (cgiResult resp).result,
    (state.pool.alloc world.probe).1⟩

theorem ensureSessionVideo_fst (state : State) (probe : ℕ → UInt16 → Bool) :
    (ensureSessionVideo state probe).1 =
      Fosipcore.ensureSessionVideo state.session (state.pool.alloc probe).1 := by
  rw [Fosipcore.ensureSessionVideo, ensureSessionVideo]
  cases state.session.livePort with
  | some port => rfl
  | none => rfl

@[simp] theorem failedLoginAction_effect (reason : Str) :
    (failedLoginAction isRelogin reason).effect = .default := rfl

/-- The side-effect of a login message for a connection. -/
def loginEffect (isRelogin : Bool) (origin : Option OriginInfo) (session : SessionState)
    (cmd : Option LoginCmd) (answers : Answers) : DispatchAction :=
  match cmd with
  | none => .default
  | some cmd => (Fosipcore.handleLogin isRelogin origin session cmd answers).2

/-- **The handler refines that of a connection**, which has neither the responses nor the pool. -/
theorem dispatchLogin_effect (isRelogin : Bool) (origin : Option OriginInfo) (state : State)
    (cmdObject : Option Json) (world : World) :
    (dispatchLogin isRelogin origin state cmdObject world).1.effect =
      loginEffect isRelogin origin state.session (cmdObject.bind LoginCmd.fromValue)
        (answers state world) := by
  rw [dispatchLogin, handleLogin]
  cases cmdObject.bind LoginCmd.fromValue with
  | none => rfl
  | some cmd =>
    simp only [loginEffect, Fosipcore.handleLogin, answers, ← ensureSessionVideo_fst]
    cases resolveCamera world.lookupHost (cmd.ip.getD []) (cmd.webPort.getD 88) with
    | none => rfl
    | some pinned =>
      cases origin with
      | none => rfl
      | some o =>
        cases hmatches : o.matches (cmd.ip.getD []) (cmd.webPort.getD 88) with
        | false => simp [hmatches]
        | true =>
          cases world.login with
          | none => simp [hmatches]
          | some resp =>
            rcases ensureSessionVideo state world.probe with ⟨_ | ⟨livePort, newVideo⟩, pool⟩
            · simp [hmatches]
            · simp [hmatches, Action.effect]

/-- Applying an action to a session is applying its effect. -/
theorem apply_effect {s : Connection} (hsession : s.session = state.session)
    (hservers : s.planes.length = state.servers) (action : Action) (pool : PortPool) :
    (s.applyAction action.effect).session = (state.apply action pool).session ∧
      (s.applyAction action.effect).planes.length = (state.apply action pool).servers := by
  obtain ⟨newCamera, newAuth, newVideo, responses⟩ := action
  simp only [Connection.applyAction, State.apply, Action.effect, hsession, hservers]
  cases newVideo with
  | none => exact ⟨rfl, hservers⟩
  | some port =>
    constructor
    · rfl
    · rw [← hservers]
      exact List.length_append

/-- A login message, as a connection sees it. -/
def message (isRelogin : Bool) (cmdObject : Option Json) : Message :=
  let cmd := cmdObject.bind LoginCmd.fromValue
  if isRelogin then .requestLoginAgain cmd else .requestLogin cmd

theorem handle_message (isRelogin : Bool) (origin : Option OriginInfo) (s : Connection)
    (cmdObject : Option Json) (answers : Answers) :
    ∃ trace, s.handle origin (message isRelogin cmdObject) answers =
      some ({ s with trace := trace }.applyAction
        (loginEffect isRelogin origin s.session (cmdObject.bind LoginCmd.fromValue) answers)) := by
  rw [message]
  cases isRelogin with
  | true => cases cmdObject.bind LoginCmd.fromValue <;> exact ⟨_, rfl⟩
  | false => cases cmdObject.bind LoginCmd.fromValue <;> exact ⟨_, rfl⟩

/-- **Processing a login message** changes the session as a connection does. -/
theorem processLogin_refines {s : Connection} (hsession : s.session = state.session)
    (hservers : s.planes.length = state.servers) :
    ∃ s', s.handle origin (message isRelogin cmdObject) (answers state world) = some s' ∧
      s'.session = (processLogin isRelogin origin state cmdObject world).1.session ∧
      s'.planes.length = (processLogin isRelogin origin state cmdObject world).1.servers := by
  obtain ⟨trace, hhandle⟩ := handle_message isRelogin origin s cmdObject (answers state world)
  rw [hsession, ← dispatchLogin_effect] at hhandle
  refine ⟨_, hhandle, ?_⟩
  rw [processLogin]
  exact apply_effect (s := { s with session := state.session, trace := trace }) rfl hservers _ _

end Login

end Fosipcore
