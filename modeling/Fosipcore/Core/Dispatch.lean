import Fosipcore.Core.Login
import Fosipcore.Proxy.QueryParams

/-!
# The dispatch of a message

Every message of a connection goes to the handler of its id. The handler answers with JSON texts, and
its action is applied to the session, which a logout then resets and tears down. A response is flat,
with the fields beside those of the envelope, or a message with a `cmdObject`.

Of the calls on the pool, those of a login are made by its handler, and the release is made by the
teardown. The start and the stop of a video server are not part of the session.

## Main definitions

* `WsMessage`: the envelope of a message
* `World`, `dispatchMessage`: what a handler asks for, and the handlers
* `Session`, `Session.processMessage`: the state of a connection, and a message that is processed

## Main results

* `dispatchLogin_outcome`: what comes of a login
* `dispatchMessage_other`: only a login has an effect on the session
* `Session.processMessage_login`: a login message is processed as in `Core.Login`
-/

namespace Fosipcore

open Text

/-! ## Messages -/

namespace MsgId

@[match_pattern] abbrev wsRequestLogin : ℕ := 20001
@[match_pattern] abbrev wsRequestLogout : ℕ := 20002
@[match_pattern] abbrev wsRequestAudio : ℕ := 20003
@[match_pattern] abbrev wsRequestTalk : ℕ := 20004
@[match_pattern] abbrev wsRequestCgi : ℕ := 20005
@[match_pattern] abbrev wsRequestSnap : ℕ := 20006
@[match_pattern] abbrev wsRequestOpenVideo : ℕ := 20007
@[match_pattern] abbrev wsRequestCloseVideo : ℕ := 20008
@[match_pattern] abbrev wsRequestRecord : ℕ := 20017
@[match_pattern] abbrev wsRequestLoginAgain : ℕ := 20020
@[match_pattern] abbrev wsRequestUpgradePromptEnable : ℕ := 20021
@[match_pattern] abbrev heartbeatMsgId : ℕ := 99999
@[match_pattern] abbrev helloResponse : ℕ := 1000001

abbrev responseRequestLogout : ℕ := 50002
abbrev responseRequestAudio : ℕ := 50004
abbrev responseRequestTalk : ℕ := 50005
abbrev responseRequestCgi : ℕ := 50006
abbrev responseRequestSnap : ℕ := 50007
abbrev responseRequestCloseVideo : ℕ := 50011
abbrev responseRequestOpenVideoSuccess : ℕ := 50012
abbrev responseRequestRecord : ℕ := 50023
abbrev responseRequestSetWebUpgradePromptEnable : ℕ := 50027

end MsgId

/-- The outer envelope for every WebSocket message. -/
structure WsMessage where
  version : ℕ
  msgId : ℕ
  groupId : ℕ
  sequence : ℕ
  dataLen : ℕ
  cmdObject : Option Json

namespace WsMessage

/-- Create a new outbound message. -/
def new (msgId : ℕ) : WsMessage := ⟨1, msgId, 0, 0, 0, none⟩

/-- Create a message with a JSON payload wrapped in `cmdObject`. -/
def withCmd (msgId : ℕ) (cmd : List (Str × Json)) : WsMessage :=
  { new msgId with cmdObject := some (.object (Json.insertAll cmd [])) }

/-- The JSON of a message: a `cmdObject` that is not there is left out. -/
def toJson (msg : WsMessage) : Json :=
  .object ([("version".toList, .nat msg.version), ("msgid".toList, .nat msg.msgId),
    ("groupId".toList, .nat msg.groupId), ("sequence".toList, .nat msg.sequence),
    ("dataLen".toList, .nat msg.dataLen)] ++
    (msg.cmdObject.map fun cmd => ("cmdObject".toList, cmd)).toList)

/-- The text of a message. -/
def print (msg : WsMessage) : Str := msg.toJson.print

end WsMessage

/-- The CGI command of a `cmdObject`. The timeout is not used, but it has to be a number. -/
def CgiCmd.fromValue (v : Json) : Option CgiCmd := do
  let (cgi, timeout) ← match v with
    | .object entries =>
      some (Json.lookup "cgi".toList entries, Json.lookup "timeout".toList entries)
    | .array [cgi] => some (some cgi, none)
    | .array [cgi, timeout] => some (some cgi, some timeout)
    | _ => none
  let cgi ← cgi.bind Json.asString
  guard (timeout.all fun timeout => (Json.asUnsigned 4294967295 timeout).isSome)
  return ⟨cgi, (Uri.decode cgi).getD []⟩

/-- Snapshot response. -/
structure SnapResponse where
  result : ℤ
  /-- Base64-encoded JPEG image data. -/
  img : Str

def SnapResponse.fields (r : SnapResponse) : List (Str × Json) :=
  [("result".toList, .number (.int r.result)), ("img".toList, .string r.img)]

/-- Video open success response. -/
structure VideoOpenSuccess where
  channel : ℕ
  devName : Str
  privilege : ℕ
  enableTalk : ℕ
  enableAudio : ℕ
  modelName : Str
  ip : Str
  webPort : UInt16
  usr : Str
  pwd : Str
  productAllInfo : Str

def VideoOpenSuccess.fields (r : VideoOpenSuccess) : List (Str × Json) :=
  [("channel".toList, .nat r.channel), ("dev_name".toList, .string r.devName),
    ("privilege".toList, .nat r.privilege), ("enable_talk".toList, .nat r.enableTalk),
    ("enable_audio".toList, .nat r.enableAudio), ("model_name".toList, .string r.modelName),
    ("ip".toList, .string r.ip), ("webPort".toList, .nat r.webPort.toNat),
    ("usr".toList, .string r.usr), ("pwd".toList, .string r.pwd),
    ("productAllInfo".toList, .string r.productAllInfo)]

namespace Dispatch

open Login MsgId
open Cgi (HttpResponse cgiResult failureXml)

/-! ## The handlers -/

/-- What the world answers to a message: to a login, and to the other requests to the camera, which
are known by their URLs. An error has a text, and a snapshot is in Base64. -/
structure World extends Login.World where
  get : Str → Except Str HttpResponse
  snapshot : Str → Except Str Str

/-- Build an error JSON response for a given id. -/
def errorResponse (msgId : ℕ) (errorMsg : Str) : Str :=
  (WsMessage.withCmd msgId (CgiResponse.fields ⟨-1, failureXml errorMsg⟩)).print

/-- The text of a flat response. -/
def flatResponse (msgId : ℕ) (cmd : List (Str × Json)) : Str := (withResponse msgId cmd).print

/-- The URL of a CGI request: that of a full path, or of a bare command. -/
def cgiUrl (camera : CameraInfo) (user pwd : Str) (cmd : CgiCmd) : Str :=
  match Cgi.forwardedPath cmd.cgi with
  | some path => "http://".toList ++ camera.addr.display ++ '/' :: path
  | none => Cgi.proxyCgiUrl camera.addr.display user pwd cmd.cgi

/-- The credentials and the camera of a session, or what it lacks. -/
def authenticated (session : SessionState) : Except Str (Str × Str × CameraInfo) :=
  match session.user, session.pwd with
  | some user, some pwd =>
    match session.camera with
    | some camera => .ok (user, pwd, camera)
    | none => .error "no camera configured (login first)".toList
  | _, _ => .error "not authenticated".toList

def handleCgi (session : SessionState) (cmdObject : Option Json) (world : World) :
    Except Str Str :=
  match cmdObject.bind CgiCmd.fromValue with
  | none => .error "missing or invalid CGI cmdObject".toList
  | some cmd => do
    let (user, pwd, camera) ← authenticated session
    let resp ← world.get (cgiUrl camera user pwd cmd)
    return flatResponse responseRequestCgi (cgiResult resp).fields

def handleSnapshot (session : SessionState) (world : World) : Except Str Str := do
  let (user, pwd, camera) ← authenticated session
  -- a camera that does not answer is no error, but a result
  let resp : SnapResponse :=
    match world.snapshot (Cgi.proxySnapshotUrl camera.addr.display user pwd) with
    | .ok img => ⟨0, img⟩
    | .error _ => ⟨-1, []⟩
  return flatResponse responseRequestSnap resp.fields

/-- The product info of an open video. -/
def productInfoXml (camera : CameraInfo) : Str :=
  "<CGI_Result><code>0</code><model>IP Camera</model><ip>".toList ++ camera.ip ++
    "</ip><webPort>".toList ++ numeral camera.httpPort.toNat ++
    "</webPort></CGI_Result>".toList

/-- The start of the video server is spawned, and nobody waits for it. -/
def handleOpenVideo (session : SessionState) : Option Str :=
  match session.camera, session.video with
  | some camera, some _ =>
    some (flatResponse responseRequestOpenVideoSuccess (VideoOpenSuccess.fields
      ⟨0, "camera".toList, 1, 0, 0, "IP Camera".toList, camera.ip, camera.httpPort,
        session.user.getD [], session.pwd.getD [], productInfoXml camera⟩))
  | _, _ => none

def handleCloseVideo (session : SessionState) : Option Str :=
  session.video.map fun _ => (WsMessage.new responseRequestCloseVideo).print

def handleTalk : Str := flatResponse responseRequestTalk (CgiResponse.fields ⟨0, []⟩)

/-- The text of a response, or of its error. -/
def okOrError (msgId : ℕ) : Except Str Str → Str
  | .ok json => json
  | .error e => errorResponse msgId e

/-- Route an inbound message to the handler of its id. -/
def dispatchMessage (origin : Option OriginInfo) (state : State) (msg : WsMessage)
    (world : World) : Action × PortPool :=
  let respond (responses : List Str) : Action × PortPool :=
    ({ Action.default with responses := responses }, state.pool)
  match msg.msgId with
  | wsRequestLogin =>
    let (action, pool, _) := dispatchLogin false origin state msg.cmdObject world.toWorld
    (action, pool)
  | wsRequestLoginAgain =>
    let (action, pool, _) := dispatchLogin true origin state msg.cmdObject world.toWorld
    (action, pool)
  | wsRequestLogout => respond [(WsMessage.new responseRequestLogout).print]
  | wsRequestCgi =>
    respond [okOrError responseRequestCgi (handleCgi state.session msg.cmdObject world)]
  | wsRequestSnap => respond [okOrError responseRequestSnap (handleSnapshot state.session world)]
  | wsRequestOpenVideo => respond (handleOpenVideo state.session).toList
  | wsRequestCloseVideo => respond (handleCloseVideo state.session).toList
  | wsRequestAudio => respond [(WsMessage.new responseRequestAudio).print]
  | wsRequestTalk => respond [handleTalk]
  | wsRequestRecord => respond [(WsMessage.new responseRequestRecord).print]
  | wsRequestUpgradePromptEnable =>
    respond [WsMessage.print ⟨1, responseRequestSetWebUpgradePromptEnable, msg.groupId,
      msg.sequence, 0, some (.object [("enable".toList, .nat 0)])⟩]
  | helloResponse | heartbeatMsgId | _ => respond []

/-! ## The session -/

/-- The state of a session, with its stream type. -/
structure Session extends State where
  streamType : UInt32

/-- Extract the stream type from a `cmdObject`. -/
def extractStreamType (cmdObject : Option Json) : UInt32 :=
  match cmdObject with
  | some (.object entries) =>
    ((Json.lookup "streamType".toList entries).bind (Json.asUnsigned 18446744073709551615)).elim 0
      UInt32.ofNat
  | _ => 0

namespace Session

/-- A session that has just begun, on a pool that it shares with the others. -/
def new (pool : PortPool) (servers : ℕ) : Session := ⟨⟨.new, none, pool, servers⟩, 0⟩

/-- The session forgets the camera, the credentials and the stream type. -/
def logout (s : Session) : Session := { s with session := s.session.logout, streamType := 0 }

/-- Stop the video pipeline, abort the listener, and return the port to the pool: the session after
it, and the ports that are released. -/
def teardownVideo (s : Session) : Session × List UInt16 :=
  -- the fields are taken, not read
  let taken := { s with session := { s.session with video := none, livePort := none } }
  match s.session.video, s.session.livePort with
  | some _, some port =>
    ({ taken with videoListener := none, pool := s.pool.release port }, [port])
  | _, _ => (taken, [])

/-- Process a message: the session after it, the ports that are released, and the responses. -/
def processMessage (origin : Option OriginInfo) (s : Session) (msg : WsMessage) (world : World) :
    Session × List UInt16 × List Str :=
  let (action, pool) := dispatchMessage origin s.toState msg world
  let s := { s with toState := s.toState.apply action pool }
  let (s, released) :=
    if action.newAuth = none ∧ msg.msgId = wsRequestLogout then s.logout.teardownVideo
    else (s, [])
  let s :=
    if msg.msgId = wsRequestOpenVideo then
      { s with streamType := extractStreamType msg.cmdObject }
    else s
  (s, released, action.responses)

end Session

/-! ## What a message does -/

variable {origin : Option OriginInfo} {state : State} {s : Session} {msg : WsMessage}
  {world : World}

/-- The outcomes of a login: there is no command, the login fails, or the camera has answered and the
session has a live port. -/
inductive LoginOutcome (isRelogin : Bool) (state : State) (world : Login.World) : Action → Prop
  | error : LoginOutcome isRelogin state world .default
  | failed (reason : Str) : LoginOutcome isRelogin state world (failedLoginAction isRelogin reason)
  | armed (camera : CameraInfo) (auth : Str × Str) (resp : CgiResponse) {livePort : UInt16}
      {newVideo : Option UInt16} :
      (Login.ensureSessionVideo state world.probe).1 = some (livePort, newVideo) →
      LoginOutcome isRelogin state world
        ⟨some camera, some auth, newVideo, loginResponses isRelogin world livePort resp⟩

theorem dispatchLogin_outcome (isRelogin : Bool) (origin : Option OriginInfo) (state : State)
    (cmdObject : Option Json) (world : Login.World) :
    LoginOutcome isRelogin state world
      (dispatchLogin isRelogin origin state cmdObject world).1 := by
  rw [dispatchLogin, Login.handleLogin]
  cases cmdObject.bind LoginCmd.fromValue with
  | none => exact .error
  | some cmd =>
    dsimp only
    cases resolveCamera world.lookupHost (cmd.ip.getD []) (cmd.webPort.getD 88) with
    | none => exact .failed _
    | some pinned =>
      cases origin with
      | none => exact .failed _
      | some origin =>
        dsimp only
        split_ifs
        · exact .failed _
        · cases world.login.map cgiResult with
          | none => exact .failed _
          | some resp =>
            -- the camera has answered, so only the port is left
            rcases hensure : Login.ensureSessionVideo state world.probe with
              ⟨_ | ⟨livePort, newVideo⟩, pool⟩
            · exact .failed _
            · exact .armed _ _ resp (congrArg Prod.fst hensure)

/-- Whether a message is a login, and if it is one again. -/
def loginKind (msgId : ℕ) : Option Bool :=
  if msgId = wsRequestLogin then some false
  else if msgId = wsRequestLoginAgain then some true
  else none

/-- A login is dispatched to its handler. -/
theorem dispatchMessage_login {isRelogin : Bool} (h : loginKind msg.msgId = some isRelogin) :
    dispatchMessage origin state msg world =
      ((dispatchLogin isRelogin origin state msg.cmdObject world.toWorld).1,
        (dispatchLogin isRelogin origin state msg.cmdObject world.toWorld).2.1) := by
  unfold loginKind at h
  split_ifs at h with hlogin hagain
  · obtain rfl := Option.some.inj h
    simp only [dispatchMessage, hlogin]
  · obtain rfl := Option.some.inj h
    simp only [dispatchMessage, hagain]

/-- **No other message has an effect** on the session or on the pool. -/
theorem dispatchMessage_other (origin : Option OriginInfo) (state : State) (world : World)
    (h : loginKind msg.msgId = none) :
    ∃ responses, dispatchMessage origin state msg world =
      ({ Action.default with responses := responses }, state.pool) := by
  unfold dispatchMessage
  split
  case h_1 heq => rw [heq] at h; cases h
  case h_2 heq => rw [heq] at h; cases h
  all_goals exact ⟨_, rfl⟩

/-- A login message is processed as by its handler. -/
theorem Session.processMessage_login {isRelogin : Bool}
    (h : loginKind msg.msgId = some isRelogin) :
    s.processMessage origin msg world =
      (⟨(processLogin isRelogin origin s.toState msg.cmdObject world.toWorld).1, s.streamType⟩, [],
        (processLogin isRelogin origin s.toState msg.cmdObject world.toWorld).2) := by
  have hlogout : msg.msgId ≠ wsRequestLogout := by
    intro hlogout
    rw [hlogout] at h
    cases h
  have hopen : msg.msgId ≠ wsRequestOpenVideo := by
    intro hopen
    rw [hopen] at h
    cases h
  rw [processMessage, dispatchMessage_login h]
  simp only [hlogout, and_false, if_false, hopen]
  rfl

end Dispatch

end Fosipcore
