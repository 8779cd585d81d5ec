import Mathlib.Data.List.ModifyLast
import Fosipcore.Library.Lines
import Fosipcore.Video.DigestResponse

/-!
# Requests on the wire

A request is sent as a text. Addresses, sessions and authorizations in it come from the camera: from
lines of its descriptions and header blocks. None of them has a line feed in it, so that the camera at
the other end reads the request that was meant, with the headers that the client has put there, and
no others.

The other end is taken to end a line at a line feed only, and to take the address up to the last
blank. One that ends a line at a carriage return as well, or an address at the first blank, can find
more in a request: carriage returns and blanks of the camera are passed on.

The address of the camera, the path and the user are those that the client was told. The hash and the
client nonce are hexadecimal numbers.

## Main definitions

* `Request.read`: how such an end reads a request
* `Request.Clean`: no part of a request goes beyond its line

## Main results

* `Request.read_text`: a clean request is read back
* `connect_read`: every request of a handshake is read back
-/

namespace Fosipcore

namespace RtspClient

open Text Fallible

/-! ## Reading a request -/

def Method.ofName (name : Str) : Option Method :=
  [Method.options, .describe, .setup, .play].find? fun method => method.name = name

/-- The method and the address. -/
def readRequestLine (line : Str) : Option (Method × Str) := do
  let (name, rest) ← splitOnce [' '] line
  let (url, version) ← rsplitOnce ' ' rest
  let method ← Method.ofName name
  if version = "RTSP/1.0".toList then some (method, url) else none

/-- The name and the value, with a colon and a blank in between. -/
def readHeader (line : Str) : Option (Str × Str) := do
  let (name, rest) ← splitOnce [':'] line
  let value ← stripPrefix [' '] rest
  some (name, value)

/-- The number of a request is its first header. -/
def readCseq : List (Str × Str) → Option (UInt32 × List (Str × Str))
  | [] => none
  | (name, value) :: headers =>
    if name = "CSeq".toList then
      (parseUnsigned 4294967295 value).map fun n => (UInt32.ofNat n, headers)
    else none

/-- Read a request, line by line up to the first blank line, which has to be the last one. -/
def Request.read (text : Str) : Option Request := do
  let requestLine ← (lines text).head?
  let (method, url) ← readRequestLine requestLine
  let headerLines := (lines text).tail.takeWhile (· ≠ [])
  let headers ← headerLines.mapM readHeader
  let (cseq, headers) ← readCseq headers
  if (lines text).tail = headerLines ++ [[]] then some ⟨method, url, cseq, headers⟩ else none

/-! ## Clean requests -/

/-- The header stays on its line, and its name ends at the colon. -/
structure CleanHeader (header : Str × Str) : Prop where
  name : OneLine header.1
  colon : ':' ∉ header.1
  value : OneLine header.2

structure Request.Clean (request : Request) : Prop where
  url : OneLine request.url
  headers : ∀ header ∈ request.headers, CleanHeader header

/-- The line of a header. -/
def headerLine (header : Str × Str) : Str := header.1 ++ ':' :: ' ' :: header.2

theorem readHeader_headerLine {header : Str × Str} (h : CleanHeader header) :
    readHeader (headerLine header) = some header := by
  rw [readHeader, headerLine, splitOnce_char _ h.colon]
  rfl

theorem CleanHeader.line {header : Str × Str} (h : CleanHeader header) :
    OneLine (headerLine header) ∧ headerLine header ≠ [] := by
  refine ⟨h.name.append (.cons (by decide) (.cons (by decide) h.value)), fun hnil => ?_⟩
  cases (List.append_eq_nil_iff.mp hnil).2

theorem method_ofName (method : Method) : Method.ofName method.name = some method := by
  cases method <;> rfl

/-- The first line of a request. -/
def requestLine (request : Request) : Str :=
  request.method.name ++ ' ' :: (request.url ++ ' ' :: "RTSP/1.0".toList)

theorem readRequestLine_requestLine (request : Request) :
    readRequestLine (requestLine request) = some (request.method, request.url) := by
  have hname : ' ' ∉ request.method.name := by
    cases request.method <;> decide
  rw [readRequestLine, requestLine, splitOnce_char _ hname, Option.bind_eq_bind, Option.bind_some]
  dsimp only
  rw [rsplitOnce_char _ (by decide), Option.bind_eq_bind, Option.bind_some]
  dsimp only
  rw [method_ofName, Option.bind_some]
  exact if_pos rfl

theorem oneLine_requestLine {request : Request} (h : request.Clean) :
    OneLine (requestLine request) := by
  have hname : OneLine request.method.name := by
    cases request.method <;> decide
  exact hname.append (.cons (by decide) (h.url.append (.cons (by decide) (by decide))))

/-- The headers of a request, with its number. -/
def numbered (request : Request) : List (Str × Str) :=
  ("CSeq".toList, numeral request.cseq.toNat) :: request.headers

theorem cleanHeader_numbered {request : Request} (h : request.Clean) :
    ∀ header ∈ numbered request, CleanHeader header := by
  intro header hmem
  rcases List.mem_cons.mp hmem with rfl | hmem
  · have hname : OneLine "CSeq".toList ∧ ':' ∉ "CSeq".toList := by decide
    exact ⟨hname.1, hname.2, oneLine_numeral _⟩
  · exact h.headers header hmem

/-- The text of a request consists of its lines. -/
theorem text_eq (request : Request) :
    request.text = ((requestLine request :: (numbered request).map headerLine).flatMap fun line =>
      line ++ ['\r', '\n']) ++ ['\r', '\n'] := by
  have hversion : " RTSP/1.0\r\nCSeq: ".toList =
      ' ' :: "RTSP/1.0".toList ++ (['\r', '\n'] ++ ("CSeq".toList ++ [':', ' '])) := rfl
  have hend : "\r\n".toList = ['\r', '\n'] := rfl
  have hcolon : ": ".toList = [':', ' '] := rfl
  rw [Request.text, hversion, hend, hcolon, requestLine, numbered]
  generalize "RTSP/1.0".toList = version
  generalize "CSeq".toList = name
  simp [headerLine, List.flatMap_map]

/-- Clean headers are read back from their lines. -/
theorem mapM_readHeader {headers : List (Str × Str)} (h : ∀ header ∈ headers, CleanHeader header) :
    (headers.map headerLine).mapM readHeader = some headers := by
  induction headers with
  | nil => rfl
  | cons header headers ih =>
    rw [List.map_cons, List.mapM_cons, readHeader_headerLine (h header List.mem_cons_self),
      ih fun header' hmem => h header' (List.mem_cons_of_mem header hmem)]
    rfl

theorem readCseq_numbered (request : Request) :
    readCseq (numbered request) = some (request.cseq, request.headers) := by
  have hlt : request.cseq.toNat ≤ 4294967295 := by
    have := request.cseq.toNat_lt
    omega
  rw [numbered, readCseq, if_pos rfl, parseUnsigned_numeral hlt, Option.map_some, UInt32.ofNat_toNat]

/-- **A clean request is read back.** -/
theorem Request.read_text {request : Request} (h : request.Clean) :
    Request.read request.text = some request := by
  have hheaders := cleanHeader_numbered h
  have hlines : lines request.text =
      requestLine request :: (numbered request).map headerLine ++ [[]] := by
    rw [text_eq, lines_flatMap]
    · rfl
    · intro line hmem
      rcases List.mem_cons.mp hmem with rfl | hmem
      · exact oneLine_requestLine h
      · obtain ⟨header, hheader, rfl⟩ := List.mem_map.mp hmem
        exact (hheaders header hheader).line.1
  have htake : ((numbered request).map headerLine ++ [[]]).takeWhile (· ≠ []) =
      (numbered request).map headerLine := by
    rw [List.takeWhile_append_of_pos]
    · simp
    · intro line hmem
      obtain ⟨header, hheader, rfl⟩ := List.mem_map.mp hmem
      exact decide_eq_true (hheaders header hheader).line.2
  rw [Request.read, hlines]
  dsimp only [List.cons_append, List.head?_cons, List.tail_cons]
  rw [htake, mapM_readHeader hheaders, Option.bind_eq_bind, Option.bind_some,
    readRequestLine_requestLine, Option.bind_eq_bind, Option.bind_some]
  dsimp only
  rw [Option.bind_eq_bind, Option.bind_some, readCseq_numbered, Option.bind_eq_bind,
    Option.bind_some]
  exact if_pos rfl

/-! ## The parts of a request -/

/-- The value of a header is part of a line. -/
theorem oneLine_extractHeader {headers name value : Str}
    (h : extractHeader headers name = some value) : OneLine value := by
  obtain ⟨line, hline, hvalue⟩ := List.exists_of_findSome?_eq_some h
  obtain ⟨⟨key, rest⟩, hsplit, hvalue⟩ := Option.bind_eq_some_iff.mp hvalue
  dsimp only at hvalue
  split_ifs at hvalue
  obtain rfl := Option.some.inj hvalue
  exact ((oneLine_of_mem_lines hline).splitOnce hsplit).2.trim

/-- The control attributes are on one line each. -/
def CleanControls (media : List SdpMedia) : Prop :=
  ∀ m ∈ media, ∀ control, m.control = some control → OneLine control

theorem cleanControls_parseMediaLine (m : Str) : CleanControls (parseMediaLine m).toList := by
  rw [parseMediaLine]
  split_ifs
  · rintro m hm control hcontrol
    obtain rfl := List.mem_singleton.mp hm
    cases hcontrol
  · rintro m hm control hcontrol
    obtain rfl := List.mem_singleton.mp hm
    cases hcontrol
  · exact List.forall_mem_nil _

theorem cleanControls_modifyLast {media : List SdpMedia} {c : Str} (h : CleanControls media)
    (hc : OneLine c) :
    CleanControls (media.modifyLast fun last => { last with control := some c }) := by
  cases media using List.reverseRecOn with
  | nil => exact List.forall_mem_nil _
  | append_singleton media last =>
    rw [List.modifyLast_concat]
    intro m hm control hcontrol
    rcases List.mem_append.mp hm with hm | hm
    · exact h m (List.mem_append_left _ hm) control hcontrol
    · obtain rfl := List.mem_singleton.mp hm
      obtain rfl := Option.some.inj hcontrol
      exact hc

/-- A line of a description leaves the control attributes on one line each. -/
theorem cleanControls_sdpLine {media : List SdpMedia} {line : Str} (h : CleanControls media)
    (hline : OneLine line) : CleanControls (sdpLine media line) := by
  rw [sdpLine]
  cases stripPrefix "m=".toList (trim line) with
  | some m => exact List.forall_mem_append.mpr ⟨h, cleanControls_parseMediaLine m⟩
  | none =>
    dsimp only
    cases hvalue : stripPrefix "a=control:".toList (trim line) with
    | none => exact h
    | some value =>
      dsimp only
      split_ifs
      · exact h
      · exact cleanControls_modifyLast h (hline.trim.stripPrefix hvalue).trim

theorem cleanControls_parseSdpMedia {sdp : Str} {media : List SdpMedia}
    (h : parseSdpMedia sdp = some media) : CleanControls media := by
  have hfold : ∀ (ls : List Str) (media : List SdpMedia), (∀ line ∈ ls, OneLine line) →
      CleanControls media → CleanControls (ls.foldl sdpLine media) := by
    intro ls
    induction ls with
    | nil => exact fun media _ h => h
    | cons line ls ih =>
      intro media hls h
      apply ih
      · exact fun line' hmem => hls line' (List.mem_cons_of_mem line hmem)
      · exact cleanControls_sdpLine h (hls line List.mem_cons_self)
  have hclean := hfold (lines sdp) [] (fun line => oneLine_of_mem_lines) (List.forall_mem_nil _)
  rw [parseSdpMedia] at h
  generalize (lines sdp).foldl sdpLine [] = sections at h hclean
  cases sections with
  | nil => cases h
  | cons m sections =>
    obtain rfl := Option.some.inj h
    exact hclean

/-- A parameter of a challenge is part of its line. -/
theorem oneLine_extractAuthParam {env : Environment} {auth param value : Str} (h : OneLine auth)
    (hvalue : extractAuthParam env auth param = .ok (some value)) : OneLine value := by
  rw [extractAuthParam] at hvalue
  cases hsplit : splitOnce (env.toLowercase (param ++ ['='])) (env.toLowercase auth) with
  | none =>
    rw [hsplit] at hvalue
    cases hvalue
  | some parts =>
    rw [hsplit] at hvalue
    dsimp only at hvalue
    cases hdrop : dropBytes (byteLength parts.1 + byteLength (param ++ ['='])) auth with
    | none =>
      rw [hdrop] at hvalue
      cases hvalue
    | some afterEq =>
      rw [hdrop] at hvalue
      dsimp only at hvalue
      have hafter : OneLine (trim afterEq) := (h.dropBytes hdrop).trim
      split at hvalue
      · rename_i inner hquote
        obtain ⟨⟨before, after⟩, hinner, rfl⟩ :=
          Option.map_eq_some_iff.mp (Except.ok.inj hvalue)
        rw [hquote] at hafter
        exact ((oneLine_cons.mp hafter).2.splitOnce hinner).1
      · obtain rfl := Option.some.inj (Except.ok.inj hvalue)
        exact (hafter.of_subset (List.takeWhile_prefix _).subset).trim

/-- The parts of an answer to a challenge stay on their line. -/
structure CleanTarget (env : Environment) (target : Target) : Prop where
  host : OneLine target.host
  path : OneLine target.path
  user : OneLine target.user
  md5Hex : ∀ s, OneLine (env.md5Hex s)
  generateCnonce : ∀ past current, OneLine (env.generateCnonce past current)

variable {env : Environment} {target : Target}

theorem oneLine_quoted {s : Str} (h : OneLine s) : OneLine (quoted s) :=
  (OneLine.cons (by decide) h).append (by decide)

/-- The parameters of a challenge stay on its line. -/
structure CleanChallenge (challenge : Challenge) : Prop where
  realm : OneLine challenge.realm
  nonce : OneLine challenge.nonce
  opaqueValue : ∀ value, challenge.opaqueValue = some value → OneLine value
  algorithm : ∀ value, challenge.algorithm = some value → OneLine value

theorem cleanChallenge_parseChallenge {wwwAuth : Str} {challenge : Challenge}
    (hauth : OneLine wwwAuth) (h : parseChallenge env wwwAuth = .ok challenge) :
    CleanChallenge challenge := by
  have hparam : ∀ {param : Str} {value? : Option Str},
      extractAuthParam env wwwAuth param = .ok value? →
        ∀ value, value? = some value → OneLine value := by
    rintro param value? hvalue value rfl
    exact oneLine_extractAuthParam hauth hvalue
  obtain ⟨hrealm, hnonce, hopaqueValue, -, halgorithm⟩ := extractAuthParam_of_parseChallenge h
  exact ⟨hparam hrealm _ rfl, hparam hnonce _ rfl, hparam hopaqueValue, hparam halgorithm⟩

theorem oneLine_trimQuotes {s : Str} (h : OneLine s) : OneLine (trimQuotes s) :=
  (h.of_subset (List.dropWhile_suffix _).subset).of_subset (List.rdropWhile_prefix _ _).subset

/-- An optional part stays on its line. -/
theorem oneLine_elim {α : Type} {value? : Option α} {f : α → Str}
    (h : ∀ value, value? = some value → OneLine (f value)) : OneLine (value?.elim [] f) := by
  cases value? with
  | none => exact oneLine_nil
  | some value => exact h value rfl

/-- The header that answers a challenge stays on its line. -/
theorem oneLine_digestAuthHeader {cnonce uri wwwAuth header : Str} {method : Method}
    (h : CleanTarget env target) (hcnonce : OneLine cnonce) (huri : OneLine uri)
    (hauth : OneLine wwwAuth)
    (hheader : digestAuthHeader env target cnonce method uri wwwAuth = .ok header) :
    OneLine header := by
  rw [digestAuthHeader_eq] at hheader
  cases hparse : parseChallenge env wwwAuth with
  | error failure =>
    rw [hparse] at hheader
    cases hheader
  | ok challenge =>
    rw [hparse] at hheader
    obtain rfl := Except.ok.inj hheader
    have hchallenge := cleanChallenge_parseChallenge hauth hparse
    have hresponse : OneLine (challenge.answer env.md5Hex target cnonce method uri).response := by
      dsimp only [Challenge.answer]
      split_ifs
      · exact h.md5Hex _
      · exact h.md5Hex _
    have hfixed : OneLine "Digest username=".toList ∧ OneLine ", realm=".toList ∧
        OneLine ", nonce=".toList ∧ OneLine ", uri=".toList ∧ OneLine ", response=".toList ∧
        OneLine ", algorithm=".toList ∧ OneLine ", opaque=".toList ∧ OneLine ", qop=".toList ∧
        OneLine ", cnonce=".toList ∧ OneLine ", nc=".toList ∧ OneLine "auth".toList ∧
        OneLine "00000001".toList := by decide
    obtain ⟨husername, hrealm, hnonce, huri', hresponse', halgorithm, hopaqueValue, hqop, hcnonce',
      hnc, hauth', hcount⟩ := hfixed
    refine (((((((((husername.append (oneLine_quoted h.user)).append hrealm).append
      (oneLine_quoted hchallenge.realm)).append hnonce).append
      (oneLine_quoted hchallenge.nonce)).append huri').append (oneLine_quoted huri)).append
      hresponse').append (oneLine_quoted hresponse)) |>.append ?_ |>.append ?_ |>.append ?_
    · refine oneLine_elim fun value hvalue => halgorithm.append ?_
      obtain ⟨algorithm, hsome, rfl⟩ := Option.map_eq_some_iff.mp hvalue
      exact oneLine_trimQuotes (hchallenge.algorithm algorithm hsome)
    · refine oneLine_elim fun value hvalue => hopaqueValue.append (oneLine_quoted ?_)
      obtain ⟨opaqueValue, hsome, rfl⟩ := Option.map_eq_some_iff.mp hvalue
      exact oneLine_trimQuotes (hchallenge.opaqueValue opaqueValue hsome)
    · refine oneLine_elim fun fields hfields => ?_
      obtain ⟨qop, -, rfl⟩ := Option.map_eq_some_iff.mp hfields
      exact ((((hqop.append hauth').append hcnonce').append (oneLine_quoted hcnonce)).append
        hnc).append hcount

theorem oneLine_rtspUrl (h : CleanTarget env target) : OneLine (rtspUrl target) := by
  have hscheme : OneLine "rtsp://".toList := by decide
  exact (((hscheme.append h.host).append (by decide)).append (oneLine_numeral _)).append
    (by decide) |>.append h.path

/-- A resolved address is the base, the control, or the control joined to the base. -/
theorem resolveControlUrl_cases {base control host url : Str} {port : UInt16}
    (h : resolveControlUrl base control host port = .ok url) :
    url = base ∨ url = trim control ∨ ∃ sep, OneLine sep ∧ url = base ++ sep ++ trim control := by
  rw [resolveControlUrl] at h
  by_cases hbase : trim control = [] ∨ trim control = ['*']
  · rw [if_pos hbase] at h
    exact .inl (Except.ok.inj h).symm
  · rw [if_neg hbase] at h
    cases hstrip : stripPrefix "rtsp://".toList (trim control) with
    | some rest =>
      rw [hstrip] at h
      dsimp only at h
      split_ifs at h
      exact .inr (.inl (Except.ok.inj h).symm)
    | none =>
      rw [hstrip] at h
      refine .inr (.inr ⟨_, ?_, (Except.ok.inj h).symm⟩)
      split_ifs
      · exact oneLine_nil
      · decide

/-- The address of a track stays on its line. -/
theorem oneLine_trackUrl {m : SdpMedia} {url : Str} (h : CleanTarget env target)
    (hcontrol : ∀ control, m.control = some control → OneLine control)
    (hurl : trackUrl target m = .ok url) : OneLine url := by
  have hbase := oneLine_rtspUrl h
  rw [trackUrl] at hurl
  cases hm : m.control with
  | none =>
    rw [hm] at hurl
    obtain rfl := Except.ok.inj hurl
    exact hbase
  | some control =>
    rw [hm] at hurl
    have htrim : OneLine (trim control) := (hcontrol control hm).trim
    obtain rfl | rfl | ⟨sep, hsep, rfl⟩ := resolveControlUrl_cases hurl
    · exact hbase
    · exact htrim
    · exact (hbase.append hsep).append htrim

/-! ## The requests of a handshake -/

/-- The requests so far are clean, and so is the session. -/
structure CleanClient (client : Client) : Prop where
  requests : ∀ dialogue ∈ client.dialogues, ∀ e ∈ dialogue, e.request.Clean
  session : ∀ session, client.session = some session → OneLine session

theorem CleanClient.sent {client : Client} {request : Request} (h : CleanClient client)
    (hrequest : request.Clean) (response : Option Response) :
    CleanClient (client.sent request response) := by
  refine ⟨fun dialogue hdialogue e he => ?_, h.session⟩
  rcases List.mem_append.mp hdialogue with hpast | hcurrent
  · exact h.requests dialogue (List.mem_append_left _ hpast) e he
  · obtain rfl := List.mem_singleton.mp hcurrent
    rcases List.mem_append.mp he with he | he
    · exact h.requests client.current List.mem_concat_self e he
    · obtain rfl := List.mem_singleton.mp he
      exact hrequest

theorem CleanClient.reconnected {client : Client} (h : CleanClient client) :
    CleanClient client.reconnected := by
  refine ⟨fun dialogue hdialogue e he => ?_, h.session⟩
  rcases List.mem_append.mp hdialogue with hpast | hcurrent
  · exact h.requests dialogue hpast e he
  · obtain rfl := List.mem_singleton.mp hcurrent
    cases he

/-- A clean request is sent. -/
theorem roundTrip_clean {request : Client → Request}
    (hrequest : ∀ client, CleanClient client → (request client).Clean) :
    Keeps CleanClient (roundTrip env request) := by
  refine (roundTrip_triple request).weaken ?_ ?_
  · rintro response _ ⟨client, h, -, rfl⟩
    exact h.sent (hrequest client h) _
  · rintro failure _ ⟨client, h, rfl⟩
    exact h.sent (hrequest client h) _

theorem reconnect_clean : Keeps CleanClient (reconnect env) := by
  refine reconnect_triple.post ?_
  rintro _ _ ⟨client, h, rfl⟩
  exact h.reconnected

/-- An authorization stays on its line. -/
theorem authorization_clean {uri wwwAuth : Str} (h : CleanTarget env target) (method : Method)
    (huri : OneLine uri) (hauth : OneLine wwwAuth) :
    Triple CleanClient (authorization env target method uri wwwAuth)
      (fun header client => OneLine header ∧ CleanClient client) fun _ => CleanClient := by
  intro client hclient
  rw [authorization]
  cases hheader : digestAuthHeader env target (env.generateCnonce client.past client.current)
      method uri wwwAuth with
  | ok header =>
    exact ⟨oneLine_digestAuthHeader h (h.generateCnonce _ _) huri hauth hheader, hclient⟩
  | error failure => exact hclient

theorem cleanHeaders_authHeader {auth : Option Str}
    (hauth : ∀ header, auth = some header → OneLine header) :
    ∀ header ∈ authHeader auth, CleanHeader header := by
  have hname : OneLine "Authorization".toList ∧ ':' ∉ "Authorization".toList := by decide
  intro header hmem
  obtain ⟨value, hvalue, rfl⟩ := Option.map_eq_some_iff.mp (Option.mem_toList.mp hmem)
  exact ⟨hname.1, hname.2, hauth value hvalue⟩

theorem cleanHeader_transport (interleavedBase : UInt8) :
    CleanHeader (transport interleavedBase) := by
  have hname : OneLine "Transport".toList ∧ ':' ∉ "Transport".toList := by decide
  have hvalue : OneLine "RTP/AVP/TCP;unicast;interleaved=".toList := by decide
  exact ⟨hname.1, hname.2, ((hvalue.append (oneLine_numeral _)).append (by decide)).append
    (oneLine_numeral _)⟩

theorem describeRequest_clean {auth : Option Str} (h : CleanTarget env target)
    (hauth : ∀ header, auth = some header → OneLine header) (client : Client) :
    (describeRequest target auth client).Clean := by
  have haccept : OneLine "Accept".toList ∧ ':' ∉ "Accept".toList ∧
      OneLine "application/sdp".toList := by decide
  refine ⟨oneLine_rtspUrl h, fun header hmem => ?_⟩
  rcases List.mem_cons.mp hmem with rfl | hmem
  · exact ⟨haccept.1, haccept.2.1, haccept.2.2⟩
  · exact cleanHeaders_authHeader hauth header hmem

theorem cleanHeader_session {session : Str} (h : OneLine session) :
    CleanHeader ("Session".toList, session) := by
  have hname : OneLine "Session".toList ∧ ':' ∉ "Session".toList := by decide
  exact ⟨hname.1, hname.2, h⟩

theorem setupRequest_clean {auth : Option Str} {url : Str} (hurl : OneLine url)
    (hauth : ∀ header, auth = some header → OneLine header) (interleavedBase : UInt8)
    {client : Client} (h : ∀ session, client.session = some session → OneLine session) :
    (setupRequest url auth interleavedBase client).Clean := by
  refine ⟨hurl, fun header hmem => ?_⟩
  rcases List.mem_append.mp hmem with hmem | hmem
  · rcases List.mem_append.mp hmem with hmem | hmem
    · obtain ⟨session, hsession, rfl⟩ := Option.map_eq_some_iff.mp (Option.mem_toList.mp hmem)
      exact cleanHeader_session (h session hsession)
    · exact cleanHeaders_authHeader hauth header hmem
  · rw [List.mem_singleton.mp hmem]
    exact cleanHeader_transport interleavedBase

theorem playRequest_clean (h : CleanTarget env target) {client : Client}
    (hclient : ∀ session, client.session = some session → OneLine session) :
    (playRequest target client).Clean := by
  refine ⟨oneLine_rtspUrl h, fun header hmem => ?_⟩
  rw [List.mem_singleton.mp hmem]
  apply cleanHeader_session
  cases hsession : client.session with
  | none => exact oneLine_nil
  | some session => exact hclient session hsession

theorem storeSession_clean (headers : Str) : Keeps CleanClient (storeSession headers) := by
  intro client h
  rw [storeSession]
  cases hsession : extractHeader headers "Session".toList with
  | none => exact h
  | some session =>
    refine ⟨h.requests, ?_⟩
    rintro _ ⟨⟩
    exact oneLine_extractHeader hsession

/-! ## The steps of a handshake -/

theorem throw_clean {α : Type} {Q : α → Client → Prop} :
    Triple CleanClient (throw .failed : Handshake α) Q fun _ => CleanClient :=
  fun _ h => h

/-- The sections of a description have clean controls. -/
theorem parse_clean {sdp : Str} :
    Triple CleanClient (orFail (parseSdpMedia sdp))
      (fun media client => CleanControls media ∧ CleanClient client) fun _ => CleanClient :=
  (orFail_triple _).post fun _ _ h => ⟨cleanControls_parseSdpMedia h.1, h.2⟩

theorem challenge_clean {headers name : Str} :
    Triple CleanClient (orFail (extractHeader headers name))
      (fun value client => OneLine value ∧ CleanClient client) fun _ => CleanClient :=
  (orFail_triple _).post fun _ _ h => ⟨oneLine_extractHeader h.1, h.2⟩

theorem options_clean (h : CleanTarget env target) : Keeps CleanClient (options env target) := by
  refine .bind (roundTrip_clean fun client _ => ?_) fun response => .pure ()
  exact ⟨oneLine_rtspUrl h, List.forall_mem_nil _⟩

theorem describe_request_clean (h : CleanTarget env target) {auth : Option Str}
    (hauth : ∀ header, auth = some header → OneLine header) :
    Keeps CleanClient (roundTrip env (describeRequest target auth)) :=
  roundTrip_clean fun client _ => describeRequest_clean h hauth client

theorem tryDescribe_clean (h : CleanTarget env target) :
    Triple CleanClient (tryDescribe env target)
      (fun media client => CleanControls media ∧ CleanClient client) fun _ => CleanClient := by
  refine Triple.bind (describe_request_clean h (by rintro _ ⟨⟩)) fun response => ?_
  split_ifs
  · exact parse_clean
  · exact throw_clean

theorem digestDescribe_clean (h : CleanTarget env target) :
    Triple CleanClient (digestDescribe env target)
      (fun media client => CleanControls media ∧ CleanClient client) fun _ => CleanClient := by
  refine Triple.bind (describe_request_clean h (by rintro _ ⟨⟩)) fun response => ?_
  split_ifs
  · exact parse_clean
  · exact throw_clean
  · refine Triple.bind challenge_clean fun wwwAuth => .of_pre fun hauth => ?_
    refine Triple.bind (authorization_clean h .describe (oneLine_rtspUrl h) hauth)
      fun auth => .of_pre fun hheader => ?_
    refine Triple.bind (describe_request_clean h ?_) fun response => ?_
    · rintro _ ⟨⟩
      exact hheader
    · split_ifs
      · exact parse_clean
      · exact throw_clean

/-- Whatever the camera describes, the controls are on one line each. -/
theorem describe_clean (h : CleanTarget env target) :
    Triple CleanClient (describe env target)
      (fun media client => CleanControls media ∧ CleanClient client) fun _ => CleanClient := by
  refine .attempt_bind (tryDescribe_clean h) (fun media => ?_) (fun _ _ => ?_) fun _ _ _ => id
  · exact fun _ hmedia => hmedia
  · refine .attempt_bind (digestDescribe_clean h) (fun media => ?_) (fun _ _ => ?_) fun _ _ _ => id
    · exact fun _ hmedia => hmedia
    · exact Triple.bind reconnect_clean fun _ => digestDescribe_clean h

theorem trackUrl_clean (h : CleanTarget env target) {m : SdpMedia}
    (hcontrol : ∀ control, m.control = some control → OneLine control) :
    Triple CleanClient (ofExcept (trackUrl target m) : Handshake Str)
      (fun url client => OneLine url ∧ CleanClient client) fun _ => CleanClient :=
  (ofExcept_triple _).post fun _ _ hurl => ⟨oneLine_trackUrl h hcontrol hurl.1, hurl.2⟩

theorem fetchSetupChallenge_clean (h : CleanTarget env target) {media : List SdpMedia}
    (hmedia : CleanControls media) :
    Triple CleanClient (fetchSetupChallenge env target media)
      (fun wwwAuth client => OneLine wwwAuth ∧ CleanClient client) fun _ => CleanClient := by
  refine .bind (orFail_triple media.head?) fun first => .of_pre fun hfirst => ?_
  have hcontrol := hmedia first (List.mem_of_head? hfirst)
  refine .bind (trackUrl_clean h hcontrol) fun url => .of_pre fun hurl => ?_
  refine Triple.bind (roundTrip_clean fun client _ => ⟨hurl, fun header hmem => ?_⟩)
    fun response => ?_
  · rw [List.mem_singleton.mp hmem]
    exact cleanHeader_transport 0
  · split_ifs
    · exact throw_clean
    · exact challenge_clean

theorem trackAuthorization_clean (h : CleanTarget env target) {url : Str} {challenge : Option Str}
    (hurl : OneLine url) (hchallenge : ∀ wwwAuth, challenge = some wwwAuth → OneLine wwwAuth) :
    Triple CleanClient (trackAuthorization env target url challenge)
      (fun auth client => (∀ header, auth = some header → OneLine header) ∧ CleanClient client)
      fun _ => CleanClient := by
  cases challenge with
  | none => exact (Triple.pure none).pre fun _ hclient => ⟨by rintro _ ⟨⟩, hclient⟩
  | some wwwAuth =>
    rw [trackAuthorization, map_eq_pure_bind]
    refine .bind (authorization_clean h .setup hurl (hchallenge wwwAuth rfl)) fun header => ?_
    refine (Triple.pure (some header)).pre ?_
    rintro client ⟨hheader, hclient⟩
    refine ⟨?_, hclient⟩
    rintro _ ⟨⟩
    exact hheader

theorem doSetupTrack_clean (h : CleanTarget env target) {m : SdpMedia} {challenge : Option Str}
    (hcontrol : ∀ control, m.control = some control → OneLine control)
    (hchallenge : ∀ wwwAuth, challenge = some wwwAuth → OneLine wwwAuth) (interleavedBase : UInt8) :
    Keeps CleanClient (doSetupTrack env target m interleavedBase challenge) := by
  refine Triple.bind (trackUrl_clean h hcontrol) fun url => .of_pre fun hurl => ?_
  refine .bind (trackAuthorization_clean h hurl hchallenge) fun auth => .of_pre fun hauth => ?_
  refine .bind (roundTrip_clean fun client hclient =>
    setupRequest_clean hurl hauth interleavedBase hclient.session) fun response => ?_
  split_ifs
  · exact throw_clean
  · exact storeSession_clean response.headers

theorem setupAllTracks_clean (h : CleanTarget env target) {media : List SdpMedia}
    {challenge : Option Str} (hmedia : CleanControls media)
    (hchallenge : ∀ wwwAuth, challenge = some wwwAuth → OneLine wwwAuth) (i : ℕ) :
    Keeps CleanClient (setupAllTracks env target challenge i media) := by
  induction media generalizing i with
  | nil => exact .pure ()
  | cons m media ih =>
    refine .bind (doSetupTrack_clean h (hmedia m List.mem_cons_self) hchallenge _) fun _ => ?_
    exact ih (fun m' hm' => hmedia m' (List.mem_cons_of_mem m hm')) (i + 1)

theorem setupAll_clean (h : CleanTarget env target) {media : List SdpMedia}
    (hmedia : CleanControls media) : Keeps CleanClient (setupAll env target media) := by
  refine .bind (Keeps.attempt (setupAllTracks_clean h hmedia (by rintro _ ⟨⟩) 0)) ?_
  rintro (_ | _)
  · refine .bind reconnect_clean fun _ => ?_
    refine Triple.bind (fetchSetupChallenge_clean h hmedia) fun wwwAuth => .of_pre fun hauth => ?_
    refine setupAllTracks_clean h hmedia ?_ 0
    rintro _ ⟨⟩
    exact hauth
  · exact .pure ()

theorem connect_clean (h : CleanTarget env target) : Keeps CleanClient (connect env target) := by
  refine .bind accept_triple fun _ => .bind (options_clean h) fun _ => ?_
  refine Triple.bind (describe_clean h) fun media => .of_pre fun hmedia => ?_
  refine .bind (setupAll_clean h hmedia) fun _ => ?_
  exact .bind (roundTrip_clean fun client hclient => playRequest_clean h hclient.session)
    fun _ => Keeps.pure ()

/-- **Every request of a handshake is read back**, whatever the camera answers: the method, the
address, the number and the headers are those that the client has meant, and there are no others. -/
theorem connect_read (h : CleanTarget env target) :
    ∀ dialogue ∈ (final (connect env target) Client.initial).dialogues, ∀ e ∈ dialogue,
      Request.read e.request.text = some e.request := by
  have hinitial : CleanClient Client.initial := by
    refine ⟨fun dialogue hdialogue e he => ?_, by rintro _ ⟨⟩⟩
    obtain rfl := List.mem_singleton.mp hdialogue
    cases he
  intro dialogue hdialogue e he
  exact Request.read_text (((connect_clean h).final hinitial).requests dialogue hdialogue e he)

/-- A camera that asks for an authorization, and puts line ends where they do not belong: into its
session, its realm, and the control of its section. -/
def injectingCamera : Environment where
  accepts _ := .ok ()
  answer _ _ text := .ok <|
    if (splitOnce "Authorization".toList text).isSome ∨ "PLAY".toList.isPrefixOf text then
      ⟨200, "Session: 7\rRange: npt=0-\r\nRange: npt=1-\r\n".toList,
        "m=video 0 RTP/AVP 96\na=control:track1\rCSeq: 9\n".toList⟩
    else ⟨401, "WWW-Authenticate: Digest realm=\"a\rb\", nonce=\"1f\"\r\n".toList, []⟩
  generateCnonce _ _ := "c0ffee".toList
  md5Hex _ := "d41d8cd9".toList
  toLowercase := asciiLower

/-- The section is set up, and played, on a second connection. -/
theorem connect_read_injecting :
    (final (connect injectingCamera sampleTarget) Client.initial).current.length = 3 ∧
      ∀ dialogue ∈ (final (connect injectingCamera sampleTarget) Client.initial).dialogues,
        ∀ e ∈ dialogue, Request.read e.request.text = some e.request := by
  refine ⟨by decide +kernel, connect_read ⟨by decide, by decide, by decide, ?_, ?_⟩⟩
  · intro s
    have hhash : OneLine "d41d8cd9".toList := by decide
    exact hhash
  · intro past current
    have hcnonce : OneLine "c0ffee".toList := by decide
    exact hcnonce

end RtspClient

end Fosipcore
