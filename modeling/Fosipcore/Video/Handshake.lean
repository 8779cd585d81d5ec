import Fosipcore.Library.Fallible
import Fosipcore.Library.Trace
import Fosipcore.Video.RtspClient

/-!
# The RTSP handshake

The client connects and goes through OPTIONS, DESCRIBE, SETUP and PLAY, one request at a time. Where
the camera asks for it, DESCRIBE and SETUP are repeated with a Digest authorization, which may take
a new connection.

The camera is arbitrary: whether it accepts a connection, and what the client reads in answer to a
request, may depend on everything that was sent and read before. A request counts as sent when the
client writes it, whether or not the write and the response succeed. The clock behind the client
nonce, the hash and the lower case of a text are arbitrary functions as well.

## Main definitions

* `Request`, `Response`, `Exchange`, `Client`: what is on record
* `extractAuthParam`, `digestAuthHeader`: the answer to a challenge
* `resolveControlUrl`, `trackUrl`: the address of a track
* `describe`, `setupAll`, `play`, `connect`: the handshake

## Main results

* `roundTrip_triple`, `reconnect_triple`, `authorization_triple`: what the steps do
-/

namespace Fosipcore

namespace RtspClient

open Text Fallible

/-! ## Requests and responses -/

inductive Method where
  | options
  | describe
  | setup
  | play
  deriving DecidableEq

def Method.name : Method → Str
  | .options => "OPTIONS".toList
  | .describe => "DESCRIBE".toList
  | .setup => "SETUP".toList
  | .play => "PLAY".toList

structure Request where
  method : Method
  url : Str
  cseq : UInt32
  headers : List (Str × Str)
  deriving DecidableEq

/-- The text of a request, up to the blank line. -/
def Request.text (request : Request) : Str :=
  request.method.name ++ [' '] ++ request.url ++ " RTSP/1.0\r\nCSeq: ".toList ++
    numeral request.cseq.toNat ++ "\r\n".toList ++
    (request.headers.flatMap fun (name, value) =>
      name ++ ": ".toList ++ value ++ "\r\n".toList) ++ "\r\n".toList

/-- A response, as the client has read it. -/
structure Response where
  statusCode : UInt16
  headers : Str
  body : Str
  deriving DecidableEq

/-- A request, and the response to it that was read. -/
structure Exchange where
  request : Request
  response : Option Response
  deriving DecidableEq

/-- The exchanges on one connection. -/
abbrev Dialogue := List Exchange

/-- Why a step does not return a value. -/
inductive Failure where
  /-- An error, which the caller may handle. -/
  | failed
  /-- The step never returns: there is no response, or a slice panics. -/
  | stopped
  deriving DecidableEq

def Failure.recoverable (failure : Failure) : Bool := failure = .failed

/-- Everything outside of the client. -/
structure Environment where
  /-- Whether a connection is accepted, after the dialogues on the earlier ones. -/
  accepts : List Dialogue → Except Failure Unit
  /-- What is read in answer to a request. -/
  answer : List Dialogue → Dialogue → Str → Except Failure Response
  /-- The client nonce, from the time. -/
  generateCnonce : List Dialogue → Dialogue → Str
  md5Hex : Str → Str
  toLowercase : Str → Str

/-- What the client was told to connect to. -/
structure Target where
  host : Str
  port : UInt16
  path : Str
  user : Str
  pwd : Str

/-- The state of the client, and what is on record. -/
structure Client where
  cseq : UInt32
  session : Option Str
  /-- The dialogues on the connections before this one. -/
  past : List Dialogue
  /-- The dialogue on this connection. -/
  current : Dialogue
  deriving DecidableEq

namespace Client

def initial : Client := ⟨1, none, [], []⟩

/-- The dialogues on all connections. -/
def dialogues (client : Client) : List Dialogue := client.past ++ [client.current]

/-- A request is sent, and the response to it is read, if there is one. -/
def sent (client : Client) (request : Request) (response : Option Response) : Client :=
  { client with
    cseq := client.cseq + 1
    current := client.current ++ [⟨request, response⟩] }

/-- The requests are numbered anew on a new connection. The session stays. -/
def reconnected (client : Client) : Client :=
  { client with cseq := 1, past := client.dialogues, current := [] }

end Client

/-- The steps of the handshake. -/
abbrev Handshake := EStateM Failure Client

/-- A value that has to be there. -/
def orFail {α : Type} : Option α → Handshake α
  | some a => pure a
  | none => throw .failed

variable (env : Environment) (target : Target)

/-- Take the next `CSeq`, send the request, and read the response. -/
def roundTrip (request : Client → Request) : Handshake Response := fun client =>
  match env.answer client.past client.current (request client).text with
  | .ok response => .ok response (client.sent (request client) (some response))
  | .error failure => .error failure (client.sent (request client) none)

/-- Connect the TCP stream, for the first time. -/
def accept : Handshake Unit := fun client =>
  match env.accepts [] with
  | .ok _ => .ok () client
  | .error failure => .error failure client

/-- Reconnect the TCP stream. -/
def reconnect : Handshake Unit := fun client =>
  match env.accepts client.dialogues with
  | .ok _ => .ok () client.reconnected
  | .error failure => .error failure client

/-! ## Digest authorization -/

/-- Extract a parameter value from a challenge string. The position of the parameter is the one in
the lower case text; it need not be between two characters of the text itself. -/
def extractAuthParam (auth param : Str) : Except Failure (Option Str) :=
  let search := param ++ ['=']
  match splitOnce (env.toLowercase search) (env.toLowercase auth) with
  | none => .ok none
  | some (before, _) =>
    -- the position in the lower case text is used for the text itself
    match dropBytes (byteLength before + byteLength search) auth with
    | none => .error .stopped
    | some afterEq =>
      match trim afterEq with
      | '\"' :: inner => .ok ((splitOnce ['\"'] inner).map Prod.fst)
      -- an unquoted value runs to the next comma, blank or line end
      | afterEq => .ok (some (trim (afterEq.takeWhile (· ∉ [',', ' ', '\r', '\n']))))

/-- Join with colons. -/
def colons (parts : List Str) : Str := [':'].intercalate parts

def quoted (s : Str) : Str := '\"' :: s ++ ['\"']

/-- `trim_matches` of a quotation mark. -/
def trimQuotes (s : Str) : Str := (s.dropWhile (· = '\"')).rdropWhile (· = '\"')

/-- Build a Digest authentication header from a `WWW-Authenticate` challenge. -/
def digestAuthHeader (cnonce : Str) (method : Method) (uri wwwAuth : Str) :
    Except Failure Str := do
  let some realm ← extractAuthParam env wwwAuth "realm".toList | throw .failed
  let some nonce ← extractAuthParam env wwwAuth "nonce".toList | throw .failed
  let opaqueValue ← extractAuthParam env wwwAuth "opaque".toList
  let qop ← extractAuthParam env wwwAuth "qop".toList
  let algorithm ← extractAuthParam env wwwAuth "algorithm".toList
  let nc := "00000001".toList
  let ha1 := env.md5Hex (colons [target.user, realm, target.pwd])
  let ha2 := env.md5Hex (colons [method.name, uri])
  let response :=
    if qop = some "auth".toList ∨ qop = some (quoted "auth".toList) then
      -- RFC 2617
      env.md5Hex (colons [ha1, nonce, nc, cnonce, "auth".toList, ha2])
    else
      -- RFC 2069
      env.md5Hex (colons [ha1, nonce, ha2])
  return "Digest username=".toList ++ quoted target.user ++
    ", realm=".toList ++ quoted realm ++ ", nonce=".toList ++ quoted nonce ++
    ", uri=".toList ++ quoted uri ++ ", response=".toList ++ quoted response ++
    (algorithm.elim [] fun algo => ", algorithm=".toList ++ trimQuotes algo) ++
    (opaqueValue.elim [] fun value => ", opaque=".toList ++ quoted (trimQuotes value)) ++
    (qop.elim [] fun _ => ", qop=auth, cnonce=".toList ++ quoted cnonce ++ ", nc=".toList ++ nc)

/-- The header for a request that is sent next, with a client nonce of its own. -/
def authorization (method : Method) (uri wwwAuth : Str) : Handshake Str := fun client =>
  match digestAuthHeader env target (env.generateCnonce client.past client.current) method uri
      wwwAuth with
  | .ok header => .ok header client
  | .error failure => .error failure client

/-! ## Addresses -/

def rtspUrl : Str :=
  "rtsp://".toList ++ target.host ++ [':'] ++ numeral target.port.toNat ++ ['/'] ++ target.path

/-- Resolve an SDP `a=control:` value against the dialed camera. An absolute address has to be one of
the camera. -/
def resolveControlUrl (base control expectedHost : Str) (expectedPort : UInt16) :
    Except Failure Str :=
  let control := trim control
  if control = [] ∨ control = ['*'] then .ok base
  else match stripPrefix "rtsp://".toList control with
    | some rest =>
      let authority := rest.takeWhile (· ≠ '/')
      let (host, port) := match rsplitOnce ':' authority with
        | some (host, port) => (asciiLower host, (parseUnsigned 65535 port).getD 0)
        | none => (asciiLower authority, 554)
      -- a camera must not send the client to another host
      if host ≠ asciiLower (trim expectedHost) ∨ port ≠ expectedPort.toNat then .error .failed
      else .ok control
    | none =>
      -- a relative address is joined with one slash, if there is none at either end
      let sep := if ['/'].isPrefixOf control ∨ ['/'].isSuffixOf base then [] else ['/']
      .ok (base ++ sep ++ control)

/-- Build the SETUP URL for a media section from its control attribute. -/
def trackUrl (media : SdpMedia) : Except Failure Str :=
  match media.control with
  | none => .ok (rtspUrl target)
  | some control => resolveControlUrl (rtspUrl target) control target.host target.port

/-! ## The requests -/

def optionsRequest (client : Client) : Request := ⟨.options, rtspUrl target, client.cseq, []⟩

/-- The `Authorization` header, if there is to be one. -/
def authHeader (auth : Option Str) : List (Str × Str) :=
  (auth.map fun header => ("Authorization".toList, header)).toList

def describeRequest (auth : Option Str) (client : Client) : Request :=
  ⟨.describe, rtspUrl target, client.cseq,
    ("Accept".toList, "application/sdp".toList) :: authHeader auth⟩

/-- The `Transport` header for a pair of interleaved channels. -/
def transport (interleavedBase : UInt8) : Str × Str :=
  ("Transport".toList, "RTP/AVP/TCP;unicast;interleaved=".toList ++
    numeral interleavedBase.toNat ++ ['-'] ++ numeral (interleavedBase + 1).toNat)

def setupRequest (url : Str) (auth : Option Str) (interleavedBase : UInt8) (client : Client) :
    Request :=
  ⟨.setup, url, client.cseq,
    (client.session.map fun session => ("Session".toList, session)).toList ++ authHeader auth ++
      [transport interleavedBase]⟩

def challengeRequest (url : Str) (client : Client) : Request :=
  ⟨.setup, url, client.cseq, [transport 0]⟩

def playRequest (client : Client) : Request :=
  ⟨.play, rtspUrl target, client.cseq, [("Session".toList, client.session.getD [])]⟩

/-! ## The handshake -/

/-- Send OPTIONS request, whatever the status of the response. -/
def options : Handshake Unit := do
  let _ ← roundTrip env (optionsRequest target)

/-- Send DESCRIBE without a challenge. -/
def tryDescribe : Handshake (List SdpMedia) := do
  let response ← roundTrip env (describeRequest target none)
  if response.statusCode = 200 then orFail (parseSdpMedia response.body) else throw .failed

/-- Get a Digest challenge and immediately send the authorized request on the same connection. -/
def digestDescribe : Handshake (List SdpMedia) := do
  let response ← roundTrip env (describeRequest target none)
  if response.statusCode = 200 then orFail (parseSdpMedia response.body)
  else if response.statusCode ≠ 401 then throw .failed
  else
    let wwwAuth ← orFail (extractHeader response.headers "WWW-Authenticate".toList)
    let auth ← authorization env target .describe (rtspUrl target) wwwAuth
    let response ← roundTrip env (describeRequest target (some auth))
    if response.statusCode = 200 then orFail (parseSdpMedia response.body) else throw .failed

/-- Send DESCRIBE: without authorization, with one on the same connection, and with one on a new
connection. -/
def describe : Handshake (List SdpMedia) := do
  match ← attempt Failure.recoverable (tryDescribe env target) with
  | some media => return media
  | none =>
    match ← attempt Failure.recoverable (digestDescribe env target) with
    | some media => return media
    | none =>
      reconnect env
      digestDescribe env target

/-- Send one unauthenticated SETUP to fetch a fresh challenge. -/
def fetchSetupChallenge (media : List SdpMedia) : Handshake Str := do
  let first ← orFail media.head?
  let url ← ofExcept (trackUrl target first)
  let response ← roundTrip env (challengeRequest url)
  if response.statusCode ≠ 401 then throw .failed
  else orFail (extractHeader response.headers "WWW-Authenticate".toList)

/-- The session of a response is the freshest one. -/
def storeSession (headers : Str) : Handshake Unit :=
  match extractHeader headers "Session".toList with
  | some session => modify fun client => { client with session := some session }
  | none => pure ()

/-- The authorization of a SETUP request, if there is a challenge. -/
def trackAuthorization (url : Str) : Option Str → Handshake (Option Str)
  | some wwwAuth => some <$> authorization env target .setup url wwwAuth
  | none => pure none

/-- Send one SETUP request for a single track. -/
def doSetupTrack (media : SdpMedia) (interleavedBase : UInt8) (challenge : Option Str) :
    Handshake Unit := do
  let url ← ofExcept (trackUrl target media)
  let auth ← trackAuthorization env target url challenge
  let response ← roundTrip env (setupRequest url auth interleavedBase)
  if response.statusCode ≠ 200 then throw .failed
  else storeSession response.headers

/-- SETUP each track, from the `i`-th on. -/
def setupAllTracks (challenge : Option Str) : ℕ → List SdpMedia → Handshake Unit
  | _, [] => pure ()
  | i, m :: media => do
    doSetupTrack env target m (interleavedBase i) challenge
    setupAllTracks challenge (i + 1) media

/-- SET UP every media section: without authorization, and with one on a new connection. -/
def setupAll (media : List SdpMedia) : Handshake Unit := do
  match ← attempt Failure.recoverable (setupAllTracks env target none 0 media) with
  | some _ => return ()
  | none =>
    reconnect env
    -- a challenge of the old connection is no good on the new one
    let challenge ← fetchSetupChallenge env target media
    setupAllTracks env target (some challenge) 0 media

/-- Send PLAY request, whatever the status of the response. -/
def play : Handshake Unit := do
  let _ ← roundTrip env (playRequest target)

/-- Complete the RTSP handshake: OPTIONS, DESCRIBE, SETUP and PLAY. -/
def handshake : Handshake Unit := do
  options env target
  let media ← describe env target
  setupAll env target media
  play env target

/-- Connect to the camera and complete the RTSP handshake. -/
def connect : Handshake Unit := do
  accept env
  handshake env target

/-! ## What the steps do -/

variable {env target} {P : Client → Prop} {α : Type}

theorem orFail_triple (a? : Option α) :
    Triple P (orFail a?) (fun a client => a? = some a ∧ P client) fun _ => P := by
  intro client h
  cases a? with
  | some a => exact ⟨rfl, h⟩
  | none => exact h

theorem ofExcept_triple (result : Except Failure α) :
    Triple P (ofExcept result : Handshake α) (fun a client => result = .ok a ∧ P client)
      fun _ => P := by
  intro client h
  cases result with
  | ok a => exact ⟨rfl, h⟩
  | error failure => exact h

theorem orFail_keeps (a? : Option α) : Keeps P (orFail a?) :=
  (orFail_triple a?).post fun _ _ h => h.2

theorem ofExcept_keeps (result : Except Failure α) : Keeps P (ofExcept result : Handshake α) :=
  (ofExcept_triple result).post fun _ _ h => h.2

theorem accept_triple : Triple P (accept env) (fun _ => P) fun _ => P := by
  intro client h
  rw [accept]
  cases env.accepts [] <;> exact h

/-- A new connection, or an error on the old one. -/
theorem reconnect_triple :
    Triple P (reconnect env) (fun _ client' => ∃ client, P client ∧ client' = client.reconnected)
      fun _ => P := by
  intro client h
  rw [reconnect]
  cases env.accepts client.dialogues with
  | ok _ => exact ⟨client, h, rfl⟩
  | error failure => exact h

/-- **A round trip** puts its exchange on record. -/
theorem roundTrip_triple (request : Client → Request) :
    Triple P (roundTrip env request)
      (fun response client' => ∃ client, P client ∧
        env.answer client.past client.current (request client).text = .ok response ∧
        client' = client.sent (request client) (some response))
      fun _ client' => ∃ client, P client ∧ client' = client.sent (request client) none := by
  intro client h
  rw [roundTrip]
  -- the request is on record whether or not there is a response
  cases hanswer : env.answer client.past client.current (request client).text with
  | ok response => exact ⟨client, h, hanswer, rfl⟩
  | error failure => exact ⟨client, h, rfl⟩

/-- An authorization is computed from the challenge, and changes nothing. -/
theorem authorization_triple (method : Method) (uri wwwAuth : Str) :
    Triple P (authorization env target method uri wwwAuth)
      (fun header client =>
        (∃ cnonce, digestAuthHeader env target cnonce method uri wwwAuth = .ok header) ∧ P client)
      fun _ => P := by
  intro client h
  rw [authorization]
  cases hheader : digestAuthHeader env target (env.generateCnonce client.past client.current)
      method uri wwwAuth with
  | ok header => exact ⟨⟨_, hheader⟩, h⟩
  | error failure => exact h

theorem storeSession_triple (headers : Str) :
    Triple P (storeSession headers)
      (fun _ client' => ∃ client session, P client ∧ client' = { client with session := session })
      fun _ => P := by
  intro client h
  rw [storeSession]
  cases extractHeader headers "Session".toList with
  | none => exact ⟨client, client.session, h, rfl⟩
  | some session => exact ⟨client, some session, h, rfl⟩

end RtspClient

end Fosipcore
