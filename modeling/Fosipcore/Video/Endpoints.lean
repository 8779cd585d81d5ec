import Fosipcore.Audio.Transcode
import Fosipcore.Video.FlvMuxer
import Fosipcore.Video.Sequential

/-!
# The HTTP endpoints

The live endpoints are two playlists and two streams. All of them ask the gate of the video server,
which is given the `Origin` of the request as a text. The value of a header is made of bytes, and it
is a text only if these are visible ASCII: a request whose `Origin` is not is taken for one without
`Origin`, and is served. Of several `Origin` headers only the first one is looked at.

## Main definitions

* `HttpFlv.Request`, `HttpFlv.Response`: what the server reads and answers
* `HttpFlv.headerText`: the text of a header value
* `HttpFlv.handleRequest`: the endpoints
* `HttpFlv.Request.origins`: the values of all `Origin` headers of a request
* `HttpFlv.ForeignTo`, `HttpFlv.Response.Refused`: foreign origins, and refusals

## Main results

* `HttpFlv.handleRequest_live`: a live endpoint serves whom the gate lets through
* `HttpFlv.refused_iff`: the requests with a foreign origin that are refused
-/

namespace Fosipcore

namespace HttpFlv

open Text

/-! ## Requests and responses -/

inductive Method where
  | get
  | options
  | other (name : Str)
  deriving DecidableEq

/-- A request: its headers have names in lower case, and their values are bytes. -/
structure Request where
  method : Method
  path : Str
  headers : List (Str × List UInt8)

/-- The value of a header: the first one, if there are several. -/
def Request.header (req : Request) (name : Str) : Option (List UInt8) := req.headers.lookup name

/-- The characters of a header that is a text: visible ASCII, blanks and tabs. -/
def isVisibleAscii (b : UInt8) : Bool := (32 ≤ b.toNat && b.toNat < 127) || b.toNat = 9

/-- `HeaderValue::to_str` -/
def headerText (value : List UInt8) : Option Str :=
  if value.all isVisibleAscii then some (value.map fun b => Char.ofNat b.toNat) else none

/-- A body is fixed, or it is a stream: the tags of a subscription behind a file header. -/
inductive Body where
  | fixed (data : Str)
  | stream (header : List UInt8) (subscription : ℕ)
  deriving DecidableEq

structure Response where
  status : ℕ
  headers : List (Str × Str)
  body : Body
  deriving DecidableEq

/-- The broadcast that a response is subscribed to. -/
def Response.subscription (resp : Response) : Option ℕ :=
  match resp.body with
  | .fixed _ => none
  | .stream _ subscription => some subscription

def contentType (value : Str) : Str × Str := ("Content-Type".toList, value)

/-- CORS and no-cache headers: the `Origin` of the caller is echoed. -/
def cors (headers : List (Str × Str)) (originHeader : Option Str) : List (Str × Str) :=
  let headers := headers ++ [("Cache-Control".toList, "no-cache".toList)]
  match originHeader with
  | some origin =>
    headers ++ [("Access-Control-Allow-Origin".toList, origin),
      ("Access-Control-Allow-Methods".toList, "GET, OPTIONS".toList)]
  | none => headers

/-! ## The endpoints -/

/-- 403 for a request whose `Origin` is not the armed camera's. -/
def forbiddenResponse : Response :=
  ⟨403, [contentType "text/plain".toList], .fixed "Forbidden".toList⟩

/-- The playlist JSON manifest. -/
def servePlaylist (port : UInt16) (streamFile : Str) (origin : Option Str) : Response :=
  ⟨200, cors [contentType "application/json".toList] origin,
    .fixed ("\x7b\"type\":\"flv\",\"url\":\"http://127.0.0.1:".toList ++ numeral port.toNat ++
      "/live/".toList ++ streamFile ++ "\"\x7d".toList)⟩

/-- A 404 response, for a stream with no active pipeline and for other paths. -/
def notFoundResponse (msg : Str) : Response :=
  ⟨404, cors [contentType "text/plain".toList] none, .fixed msg⟩

/-- Forward the tags of a subscription. -/
def flvStreamResponse (subscription : ℕ) (header : List UInt8) (origin : Option Str) : Response :=
  ⟨200, cors [contentType "video/x-flv".toList, ("Connection".toList, "close".toList)] origin,
    .stream header subscription⟩

def serveVideoFlvStream (v : VideoServer) (origin : Option Str) : Response :=
  match v.subscribeVideo with
  | some rx => flvStreamResponse rx flvHeader origin
  | none => notFoundResponse "No video stream active".toList

def serveAudioFlvStream (v : VideoServer) (origin : Option Str) : Response :=
  match v.subscribeAudio with
  | some rx => flvStreamResponse rx flvAudioHeader origin
  | none => notFoundResponse "No audio stream active".toList

/-- The paths of the live endpoints. -/
def livePaths : List Str :=
  ["/live/playlist1.json".toList, "/live/playlist2.json".toList, "/live/stream1.flv".toList,
    "/live/stream2.flv".toList]

/-- What is served at a path to those who may have it. -/
def serveLive (v : VideoServer) (port : UInt16) (origin : Option Str) (path : Str) :
    Option Response :=
  if path = "/live/playlist1.json".toList then
    some (servePlaylist port "stream1.flv".toList origin)
  else if path = "/live/playlist2.json".toList then
    some (servePlaylist port "stream2.flv".toList origin)
  else if path = "/live/stream1.flv".toList then some (serveVideoFlvStream v origin)
  else if path = "/live/stream2.flv".toList then some (serveAudioFlvStream v origin)
  else none

/-- Route a request to its endpoint. -/
def handleRequest (req : Request) (v : VideoServer) (port : UInt16) : Response :=
  -- a value that is no text counts as an absent one
  let originHeader := (req.header "origin".toList).bind headerText
  match req.method with
  | .get =>
    match serveLive v port originHeader req.path with
    | some served => if v.originAllowed originHeader then served else forbiddenResponse
    | none =>
      if req.path = "/".toList then
        ⟨200, cors [contentType "text/plain".toList] none, .fixed "fosipcore HTTP-FLV / OK".toList⟩
      else notFoundResponse "Not Found".toList
  -- the preflight is answered neutrally
  | .options => ⟨204, cors [] none, .fixed []⟩
  | .other _ => notFoundResponse "Not Found".toList

/-! ## The gate -/

/-- A request for a live endpoint. -/
def Request.IsLive (req : Request) : Prop := req.method = .get ∧ req.path ∈ livePaths

/-- The text of the `Origin` of a request. -/
def Request.origin (req : Request) : Option Str := (req.header "origin".toList).bind headerText

/-- A stream is served, or there is none. -/
theorem serveFlvStream_status (v : VideoServer) (origin : Option Str) :
    (serveVideoFlvStream v origin).status ≠ 403 ∧ (serveAudioFlvStream v origin).status ≠ 403 := by
  constructor
  · unfold serveVideoFlvStream
    cases v.subscribeVideo <;> nofun
  · unfold serveAudioFlvStream
    cases v.subscribeAudio <;> nofun

/-- There is something at the live paths, and it is no refusal. -/
theorem serveLive_of_mem {path : Str} (h : path ∈ livePaths) (v : VideoServer) (port : UInt16)
    (origin : Option Str) :
    ∃ served, serveLive v port origin path = some served ∧ served.status ≠ 403 := by
  simp only [livePaths, List.mem_cons, List.not_mem_nil, or_false] at h
  rcases h with rfl | rfl | rfl | rfl
  · exact ⟨_, rfl, nofun⟩
  · exact ⟨_, rfl, nofun⟩
  · exact ⟨_, rfl, (serveFlvStream_status v origin).1⟩
  · exact ⟨_, rfl, (serveFlvStream_status v origin).2⟩

/-- **A live endpoint** serves whom the gate lets through, and refuses the others. -/
theorem handleRequest_live {req : Request} (h : req.IsLive) (v : VideoServer) (port : UInt16) :
    ∃ served, served.status ≠ 403 ∧ handleRequest req v port =
      if v.originAllowed req.origin then served else forbiddenResponse := by
  obtain ⟨hmethod, hpath⟩ := h
  obtain ⟨served, hserved, hstatus⟩ := serveLive_of_mem hpath v port req.origin
  refine ⟨served, hstatus, ?_⟩
  rw [Request.origin] at hserved
  simp only [handleRequest, hmethod, hserved]
  rfl

/-! ## Foreign origins -/

/-- The values of the `Origin` headers of a request, in their order. -/
def Request.origins (req : Request) : List (List UInt8) :=
  (req.headers.filter fun header => header.1 = "origin".toList).map Prod.snd

theorem header_origin (req : Request) : req.header "origin".toList = req.origins.head? := by
  obtain ⟨method, path, headers⟩ := req
  simp only [Request.header, Request.origins]
  induction headers with
  | nil => rfl
  | cons header headers ih =>
    obtain ⟨name, value⟩ := header
    by_cases hname : name = "origin".toList
    · subst hname
      rw [List.lookup_cons_self, List.filter_cons_of_pos (by simp)]
      rfl
    · have hne : ("origin".toList == name) = false := beq_false_of_ne (Ne.symm hname)
      rw [List.lookup_cons, hne, List.filter_cons_of_neg (by simpa using hname)]
      exact ih

/-- The text of the `Origin` is that of the first `Origin` header. -/
theorem origin_eq (req : Request) : req.origin = req.origins.head?.bind headerText := by
  rw [Request.origin, header_origin]

/-- The value of a header is no text that is parsed to the origin. -/
def ForeignTo (armed : OriginInfo) (value : List UInt8) : Prop :=
  ∀ raw, headerText value = some raw → OriginInfo.parse raw ≠ some armed

/-- **A refusal**: status 403, no CORS header, and no subscription. -/
structure Response.Refused (resp : Response) : Prop where
  status : resp.status = 403
  cors : ∀ header ∈ resp.headers, header.1 ≠ "Access-Control-Allow-Origin".toList
  subscription : resp.subscription = none

theorem refused_forbiddenResponse : forbiddenResponse.Refused where
  status := rfl
  cors := by
    intro header hheader
    rw [List.mem_singleton.mp hheader]
    decide
  subscription := rfl

variable {v : VideoServer} {claimedHost : Str} {httpPort : UInt16}

/-- An armed gate lets a text through if it is parsed to the armed origin. -/
theorem originAllowed_some (harmed : v.armedOrigin = some (.ofCamera claimedHost httpPort))
    (raw : Str) : v.originAllowed (some raw) = true ↔
      OriginInfo.parse raw = some (.ofCamera claimedHost httpPort) := by
  simp only [VideoServer.originAllowed, harmed, Option.any_eq_true, OriginInfo.matches_iff,
    OriginInfo.ofCamera_ofCamera]
  constructor
  · rintro ⟨o, hparse, rfl⟩
    exact hparse
  · intro hparse
    exact ⟨_, hparse, rfl⟩

theorem headerText_visible {value : List UInt8} (h : ∀ b ∈ value, isVisibleAscii b = true) :
    headerText value = some (value.map fun b => Char.ofNat b.toNat) :=
  if_pos (List.all_eq_true.mpr h)

theorem headerText_eq_none {value : List UInt8} :
    headerText value = none ↔ ¬ ∀ b ∈ value, isVisibleAscii b = true := by
  rw [← List.all_eq_true]
  unfold headerText
  split_ifs with hvisible
  · exact iff_of_false nofun (not_not.mpr hvisible)
  · exact iff_of_true rfl hvisible

/-- **The gate is closed** if and only if the first `Origin` header is foreign and visible ASCII. -/
theorem denied_iff (harmed : v.armedOrigin = some (.ofCamera claimedHost httpPort))
    (req : Request) :
    v.originAllowed req.origin = false ↔ ∃ value ∈ req.origins.head?,
      ForeignTo (.ofCamera claimedHost httpPort) value ∧ ∀ b ∈ value, isVisibleAscii b = true := by
  have habsent : v.originAllowed none = true := by
    simp only [VideoServer.originAllowed, harmed]
  rw [origin_eq]
  cases hhead : req.origins.head? with
  | none =>
    rw [Option.bind_none, habsent]
    refine iff_of_false Bool.noConfusion ?_
    rintro ⟨_, ⟨⟩, -, -⟩
  | some value =>
    rw [Option.bind_some]
    by_cases hvisible : ∀ b ∈ value, isVisibleAscii b = true
    · -- the text is parsed, and the gate compares it
      have htext := headerText_visible hvisible
      rw [htext, ← Bool.not_eq_true, originAllowed_some harmed]
      constructor
      · intro hparse
        refine ⟨value, rfl, ?_, hvisible⟩
        rintro raw hraw
        obtain rfl := Option.some.inj (htext.symm.trans hraw)
        exact hparse
      · rintro ⟨_, ⟨⟩, hforeign, -⟩
        exact hforeign _ htext
    · -- there is no text, so the gate is told that there is no origin
      rw [headerText_eq_none.mpr hvisible, habsent]
      refine iff_of_false Bool.noConfusion ?_
      rintro ⟨_, ⟨⟩, -, hall⟩
      exact hvisible hall

/-- A live endpoint refuses if and only if the first `Origin` header is foreign and visible ASCII. -/
theorem refused_first (harmed : v.armedOrigin = some (.ofCamera claimedHost httpPort))
    {req : Request} (hlive : req.IsLive) (port : UInt16) :
    (handleRequest req v port).Refused ↔ ∃ value ∈ req.origins.head?,
      ForeignTo (.ofCamera claimedHost httpPort) value ∧ ∀ b ∈ value, isVisibleAscii b = true := by
  obtain ⟨served, hstatus, hhandle⟩ := handleRequest_live hlive v port
  rw [hhandle, ← denied_iff harmed req]
  cases v.originAllowed req.origin with
  | true =>
    rw [if_pos rfl]
    exact iff_of_false (fun hrefused => hstatus hrefused.status) Bool.noConfusion
  | false =>
    rw [if_neg Bool.false_ne_true]
    exact iff_of_true refused_forbiddenResponse rfl

/-- **A request that carries a foreign origin is refused**, on every live endpoint and for every list
of headers, if and only if the first of its `Origin` headers is foreign and visible ASCII. -/
theorem refused_iff (harmed : v.armedOrigin = some (.ofCamera claimedHost httpPort)) {req : Request}
    (hlive : req.IsLive) (port : UInt16) :
    ((∃ value ∈ req.origins, ForeignTo (.ofCamera claimedHost httpPort) value) →
        (handleRequest req v port).Refused) ↔
      (∀ value ∈ req.origins, ¬ ForeignTo (.ofCamera claimedHost httpPort) value) ∨
        ∃ value ∈ req.origins.head?, ForeignTo (.ofCamera claimedHost httpPort) value ∧
          ∀ b ∈ value, isVisibleAscii b = true := by
  rw [refused_first harmed hlive port, or_iff_not_imp_left]
  simp only [not_forall, not_not, exists_prop]

/-! ## Two requests -/

/-- A server with live streams of a camera. -/
def liveServer : VideoServer :=
  ⟨some 0, some 0, some 0, some (.ofCamera "192.168.1.10".toList 88)⟩

/-- A request for the video stream, with some `Origin` headers. -/
def streamRequest (origins : List (List UInt8)) : Request :=
  ⟨.get, "/live/stream1.flv".toList, origins.map fun value => ("origin".toList, value)⟩

theorem isLive_streamRequest (origins : List (List UInt8)) : (streamRequest origins).IsLive :=
  ⟨rfl, List.mem_of_getElem? (i := 2) rfl⟩

/-- The bytes of `http://a.b`, and those of the origin of the camera. -/
def foreignOrigin : List UInt8 := ascii "http://a.b"
def cameraOrigin : List UInt8 := ascii "http://192.168.1.10:88"

theorem foreignTo_foreignOrigin :
    ForeignTo (.ofCamera "192.168.1.10".toList 88) foreignOrigin := by
  intro raw hraw
  obtain rfl := Option.some.inj hraw
  decide +kernel

/-- An origin of visible ASCII is refused, also in front of that of the camera. -/
theorem refused_iff_ascii :
    (handleRequest (streamRequest [foreignOrigin, cameraOrigin]) liveServer 11000).Refused := by
  refine (refused_iff (v := liveServer) rfl (isLive_streamRequest _) 11000).mpr (.inr ?_) ?_
  · exact ⟨foreignOrigin, rfl, foreignTo_foreignOrigin, List.all_eq_true.mp rfl⟩
  · exact ⟨foreignOrigin, List.mem_of_getElem? (i := 0) rfl, foreignTo_foreignOrigin⟩

/-- An origin with another byte behind it gets the stream, and so does a foreign one behind that of
the camera. -/
theorem not_refused_foreign :
    (¬ ∀ (v : VideoServer) (claimedHost : Str) (httpPort port : UInt16) (req : Request),
        v.armedOrigin = some (.ofCamera claimedHost httpPort) → req.IsLive →
        (∃ value ∈ req.origins, ForeignTo (.ofCamera claimedHost httpPort) value) →
        (handleRequest req v port).Refused) ∧
      (handleRequest (streamRequest [foreignOrigin ++ [0xe9]]) liveServer 11000).subscription =
        some 0 ∧
      (handleRequest (streamRequest [cameraOrigin, foreignOrigin]) liveServer 11000).subscription =
        some 0 := by
  have hserved : (handleRequest (streamRequest [foreignOrigin ++ [0xe9]]) liveServer
      11000).subscription = some 0 := by
    decide +kernel
  refine ⟨fun h => ?_, hserved, by decide +kernel⟩
  have hforeign : ForeignTo (.ofCamera "192.168.1.10".toList 88) (foreignOrigin ++ [0xe9]) := by
    intro raw hraw
    cases hraw
  have hrefused := h liveServer _ _ 11000 (streamRequest [foreignOrigin ++ [0xe9]]) rfl
    (isLive_streamRequest _) ⟨_, List.mem_of_getElem? (i := 0) rfl, hforeign⟩
  cases hserved.symm.trans hrefused.subscription

end HttpFlv

end Fosipcore
