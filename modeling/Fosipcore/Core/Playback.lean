import Fosipcore.Core.Envelopes
import Fosipcore.Core.MessageLoop
import Fosipcore.Library.JsonMap
import Fosipcore.Net.Origins
import Fosipcore.Video.Endpoints
import Fosipcore.Video.OriginGate

/-!
# From the login to the stream

The browser is told the live port of its session in the init info of a login. It asks that port for
the manifest of a track, and finds there the URL of the stream, at the same port. The browser reads
JSON texts, so it is their values that count. While a camera is armed, the server echoes no `Origin`
but that of the page of the camera, and sends the stream to no page but this one.

## Main definitions

* `Dispatch.TextId`: the id that the browser reads in a text
* `HttpFlv.playlistPath`, `HttpFlv.streamPath`: the endpoints of a track
* `HttpFlv.manifest`: the manifest of a track, as JSON

## Main results

* `Dispatch.livePort_told`: the port that the browser is told is that of the session
* `HttpFlv.handleRequest_reveals`: to whom a response reveals something
* `Dispatch.playback`: the way from the login to the stream
-/

namespace Fosipcore

open Text Json

namespace Dispatch

open Login MsgId
open Cgi (failureXml)

/-! ## The ids of the responses -/

/-- The browser reads an id in a text. -/
def TextId (text : Str) (id : ℕ) : Prop :=
  ∃ entries, read text = some (.object entries) ∧
    lookup "msgid".toList entries = some (.nat id)

theorem nat_injective {m n : ℕ} (h : Json.nat m = .nat n) : m = n :=
  Int.ofNat.inj (JsonNumber.int.inj (Json.number.inj h))

/-- A text has one id. -/
theorem TextId.unique {text : Str} {id id' : ℕ} (h : TextId text id) (h' : TextId text id') :
    id = id' := by
  obtain ⟨entries, hread, hid⟩ := h
  obtain ⟨entries', hread', hid'⟩ := h'
  obtain rfl := Json.object.inj (Option.some.inj (hread.symm.trans hread'))
  exact nat_injective (Option.some.inj (hid.symm.trans hid'))

/-- The fields of the envelope. -/
def envelope (msgId : ℕ) : List (Str × Json) :=
  [("version".toList, .nat 1), ("msgid".toList, .nat msgId), ("groupId".toList, .nat 0),
    ("sequence".toList, .nat 0), ("dataLen".toList, .nat 0)]

/-- **What the browser reads in a flat response**: the fields of the command, and the others of the
envelope. -/
theorem read_flatResponse {msgId : ℕ} {cmd : List (Str × Json)}
    (hintegral : ∀ field ∈ cmd, integral field.2 = true) (hkeys : (keys cmd).Nodup) :
    ∃ entries, read (flatResponse msgId cmd) = some (.object entries) ∧
      ∀ k, lookup k entries = (lookup k cmd).or (lookup k (envelope msgId)) := by
  have hread : integral (withResponse msgId cmd) = true := by
    apply integral_insertAll
    · intro field hfield
      rcases mem_insertAll hfield with hfield | hfield
      · exact hintegral field hfield
      · cases hfield
    · intro entry hentry
      rcases mem_insertAll hentry with hentry | hentry
      · simp only [List.mem_cons, List.not_mem_nil, or_false] at hentry
        rcases hentry with rfl | rfl | rfl | rfl | rfl <;> rfl
      · cases hentry
  have henvelope : (keys (envelope msgId)).Nodup := by
    rw [show keys (envelope msgId) = keys (envelope 0) from rfl]
    decide
  have hmap : ∀ {fields : List (Str × Json)}, (keys fields).Nodup → ∀ k,
      lookup k (insertAll fields []) = lookup k fields := by
    intro fields hfields k
    rw [lookup_insertAll hfields]
    exact Option.or_none
  refine ⟨_, read_print hread, fun k => ?_⟩
  rw [lookup_insertAll (Sorted.insertAll cmd List.Pairwise.nil).nodup, hmap hkeys]
  exact congrArg _ (hmap henvelope k)

/-- A flat response has the id that it is built with. -/
theorem textId_flatResponse {msgId : ℕ} {cmd : List (Str × Json)}
    (hintegral : ∀ field ∈ cmd, integral field.2 = true) (hkeys : (keys cmd).Nodup)
    (hid : "msgid".toList ∉ keys cmd) : TextId (flatResponse msgId cmd) msgId := by
  obtain ⟨entries, hread, hlookup⟩ := read_flatResponse hintegral hkeys
  have hnone : lookup "msgid".toList cmd = none :=
    Option.isNone_iff_eq_none.mp (by simpa using mt isSome_lookup.mp hid)
  refine ⟨entries, hread, ?_⟩
  rw [hlookup, hnone]
  rfl

/-- So does a message. -/
theorem textId_print {msg : WsMessage} (h : ∀ cmd ∈ msg.cmdObject, integral cmd = true) :
    TextId msg.print msg.msgId := ⟨_, read_message h, rfl⟩

theorem textId_new (msgId : ℕ) : TextId (WsMessage.new msgId).print msgId :=
  textId_print (by rintro _ ⟨⟩)

/-- The keys of a CGI response do not depend on its values. -/
theorem keys_cgiResponse (resp : CgiResponse) :
    keys resp.fields = ["result".toList, "response".toList] := rfl

theorem textId_cgiResponse (msgId : ℕ) (resp : CgiResponse) :
    TextId (flatResponse msgId resp.fields) msgId := by
  apply textId_flatResponse
  · simp [CgiResponse.fields, integral]
  · rw [keys_cgiResponse]
    decide
  · rw [keys_cgiResponse]
    decide

theorem textId_errorResponse (msgId : ℕ) (errorMsg : Str) :
    TextId (errorResponse msgId errorMsg) msgId := by
  refine textId_print fun cmd hcmd => ?_
  obtain rfl := Option.some.inj hcmd
  apply integral_insertAll
  · simp [CgiResponse.fields, integral]
  · intro entry hentry
    cases hentry

theorem textId_snapResponse (msgId : ℕ) (resp : SnapResponse) :
    TextId (flatResponse msgId resp.fields) msgId := by
  have hkeys : keys resp.fields = ["result".toList, "img".toList] := rfl
  apply textId_flatResponse
  · simp [SnapResponse.fields, integral]
  · rw [hkeys]
    decide
  · rw [hkeys]
    decide

theorem textId_productInfo (msgId : ℕ) (info : ProductInfo) :
    TextId (flatResponse msgId info.fields) msgId := by
  have hkeys : keys info.fields = keys (ProductInfo.fields ⟨[]⟩) := rfl
  apply textId_flatResponse
  · simp [ProductInfo.fields, integral]
  · rw [hkeys]
    decide
  · rw [hkeys]
    decide

theorem textId_videoOpenSuccess (msgId : ℕ) (resp : VideoOpenSuccess) :
    TextId (flatResponse msgId resp.fields) msgId := by
  have hkeys : keys resp.fields =
      keys (VideoOpenSuccess.fields ⟨0, [], 0, 0, 0, [], [], 0, [], [], []⟩) := rfl
  apply textId_flatResponse
  · simp [VideoOpenSuccess.fields, integral, Json.nat]
  · rw [hkeys]
    decide
  · rw [hkeys]
    decide

/-- **The browser reads the live port** in the init info. -/
theorem read_initInfo (info : InitInfo) :
    ∃ entries, read (flatResponse 50009 info.fields) = some (.object entries) ∧
      lookup "msgid".toList entries = some (.nat 50009) ∧
      lookup "livePort".toList entries = some (.nat info.livePort.toNat) := by
  have hkeys : keys info.fields = keys (InitInfo.fields {}) := rfl
  have hintegral : ∀ field ∈ info.fields, integral field.2 = true := by
    simpa [InitInfo.fields, integral, Json.nat] using integralItems_nat info.streamParam
  have hnodup : (keys info.fields).Nodup := by
    rw [hkeys]
    decide
  obtain ⟨entries, hread, hlookup⟩ := @read_flatResponse 50009 _ hintegral hnodup
  exact ⟨entries, hread, (hlookup _).trans rfl, (hlookup _).trans rfl⟩

/-! ## The live port -/

variable {origin : Option OriginInfo} {state : State} {s : Session} {msg : WsMessage} {w : World}
  {text : Str} {entries : List (Str × Json)}

/-- The text has an id, and it is not that of the init info. -/
def NoInitInfo (text : Str) : Prop := ∃ id, TextId text id ∧ id ≠ 50009

theorem noInitInfo_okOrError {msgId : ℕ} (hid : msgId ≠ 50009) {answer : Except Str Str}
    (hok : ∀ text, answer = .ok text → TextId text msgId) : NoInitInfo (okOrError msgId answer) := by
  refine ⟨msgId, ?_, hid⟩
  cases answer with
  | ok text => exact hok text rfl
  | error e => exact textId_errorResponse msgId e

theorem textId_handleCgi {session : SessionState} {cmdObject : Option Json}
    (h : handleCgi session cmdObject w = .ok text) : TextId text responseRequestCgi := by
  rw [handleCgi] at h
  cases hcmd : cmdObject.bind CgiCmd.fromValue with
  | none =>
    rw [hcmd] at h
    cases h
  | some cmd =>
    rw [hcmd] at h
    cases hauth : authenticated session with
    | error e =>
      rw [hauth] at h
      cases h
    | ok auth =>
      obtain ⟨user, pwd, camera⟩ := auth
      rw [hauth] at h
      cases hget : w.get (cgiUrl camera user pwd cmd) with
      | error e =>
        simp only [bind, Except.bind, hget] at h
        cases h
      | ok resp =>
        simp only [bind, Except.bind, hget] at h
        obtain rfl := Except.ok.inj h
        exact textId_cgiResponse _ _

theorem textId_handleSnapshot {session : SessionState}
    (h : handleSnapshot session w = .ok text) : TextId text responseRequestSnap := by
  rw [handleSnapshot] at h
  cases hauth : authenticated session with
  | error e =>
    rw [hauth] at h
    cases h
  | ok auth =>
    rw [hauth] at h
    obtain rfl := Except.ok.inj h
    exact textId_snapResponse _ _

theorem noInitInfo_handleOpenVideo {session : SessionState}
    (h : handleOpenVideo session = some text) : NoInitInfo text := by
  unfold handleOpenVideo at h
  split at h
  · obtain rfl := Option.some.inj h
    exact ⟨_, textId_videoOpenSuccess _ _, by decide⟩
  · cases h

/-- **No message but a login is answered with an init info.** -/
theorem noInitInfo_other (h : loginKind msg.msgId = none) :
    ∀ text ∈ (dispatchMessage origin state msg w).1.responses, NoInitInfo text := by
  have hnew : ∀ {msgId : ℕ}, msgId ≠ 50009 → NoInitInfo (WsMessage.new msgId).print :=
    fun hid => ⟨_, textId_new _, hid⟩
  unfold dispatchMessage
  split
  -- the two logins, and the logout
  case h_1 heq => rw [heq] at h; cases h
  case h_2 heq => rw [heq] at h; cases h
  · exact List.forall_mem_singleton.mpr (hnew (by decide))
  -- a CGI request, and a snapshot
  · refine List.forall_mem_singleton.mpr ?_
    exact noInitInfo_okOrError (by decide) fun _ => textId_handleCgi
  · refine List.forall_mem_singleton.mpr ?_
    exact noInitInfo_okOrError (by decide) fun _ => textId_handleSnapshot
  -- the video requests
  · intro text htext
    exact noInitInfo_handleOpenVideo (Option.mem_toList.mp htext)
  · intro text htext
    obtain ⟨video, -, rfl⟩ := Option.map_eq_some_iff.mp (Option.mem_toList.mp htext)
    exact hnew (by decide)
  -- audio, talk, record, and the upgrade prompt
  · exact List.forall_mem_singleton.mpr (hnew (by decide))
  · exact List.forall_mem_singleton.mpr ⟨_, textId_cgiResponse _ _, by decide⟩
  · exact List.forall_mem_singleton.mpr (hnew (by decide))
  · have hid : responseRequestSetWebUpgradePromptEnable ≠ 50009 := by decide
    refine List.forall_mem_singleton.mpr ⟨_, textId_print ?_, hid⟩
    rintro cmd ⟨⟩
    rfl
  · exact List.forall_mem_nil _
  · exact List.forall_mem_nil _
  · exact List.forall_mem_nil _

/-- A login is answered with one init info at most, and its port is that of the action. -/
theorem livePort_loginResponses {isRelogin : Bool} {world : Login.World} {livePort : UInt16}
    {resp : CgiResponse} (htext : text ∈ loginResponses isRelogin world livePort resp)
    (hread : read text = some (.object entries))
    (hid : lookup "msgid".toList entries = some (.nat 50009)) :
    lookup "livePort".toList entries = some (.nat livePort.toNat) := by
  have hinit : TextId text 50009 := ⟨entries, hread, hid⟩
  simp only [loginResponses, List.mem_cons, List.mem_append, Option.mem_toList,
    Option.map_eq_some_iff, List.not_mem_nil, or_false] at htext
  rcases htext with rfl | ⟨xml, -, rfl⟩ | rfl
  · -- the result of the login has another id
    have hresp : TextId (loginResponse isRelogin resp) (responseMsgId isRelogin) :=
      textId_cgiResponse _ _
    have hne : responseMsgId isRelogin ≠ 50009 := by cases isRelogin <;> decide
    exact absurd (hresp.unique hinit) hne
  · have hinfo : TextId (flatResponse 50008 (ProductInfo.fields ⟨xml⟩)) 50008 :=
      textId_productInfo _ _
    exact absurd (hinfo.unique hinit) (by decide)
  · generalize hinfo : (if isRelogin = true then (none, { livePort := livePort })
      else Cgi.gatherInitInfo world.query livePort : Option Str × InitInfo) = info at hread
    have hport : info.2.livePort = livePort := by
      rw [← hinfo]
      cases isRelogin <;> rfl
    obtain ⟨entries', hread', -, hlive⟩ := read_initInfo info.2
    obtain rfl := Json.object.inj (Option.some.inj (hread.symm.trans hread'))
    rw [hlive, hport]

/-- The live port of a login is that of the session behind it. -/
theorem livePort_ensured {probe : ℕ → UInt16 → Bool} {livePort : UInt16}
    {newVideo : Option UInt16}
    (h : (Login.ensureSessionVideo state probe).1 = some (livePort, newVideo)) :
    newVideo.or state.session.livePort = some livePort := by
  rw [Login.ensureSessionVideo] at h
  cases hlive : state.session.livePort with
  | some port =>
    rw [hlive] at h
    obtain ⟨rfl, rfl⟩ := Prod.mk.inj (Option.some.inj h)
    rfl
  | none =>
    rw [hlive] at h
    obtain ⟨port, -, hport⟩ := Option.map_eq_some_iff.mp h
    obtain ⟨rfl, rfl⟩ := Prod.mk.inj hport
    rfl

/-- **The port that the browser is told is that of the session**: whatever is answered to a message,
and whatever the session was before. -/
theorem livePort_told (htext : text ∈ (s.processMessage origin msg w).2.2)
    (hread : read text = some (.object entries))
    (hid : lookup "msgid".toList entries = some (.nat 50009)) :
    ∃ port : UInt16, (s.processMessage origin msg w).1.session.livePort = some port ∧
      lookup "livePort".toList entries = some (.nat port.toNat) := by
  have hresponses : text ∈ (dispatchMessage origin s.toState msg w).1.responses := htext
  cases hkind : loginKind msg.msgId with
  | none =>
    obtain ⟨id, hother, hne⟩ := noInitInfo_other hkind text hresponses
    exact absurd (hother.unique ⟨entries, hread, hid⟩) hne
  | some isRelogin =>
    have hlogout : msg.msgId ≠ wsRequestLogout := by
      intro hlogout
      rw [hlogout] at hkind
      cases hkind
    rw [livePort_processMessage hlogout]
    rw [dispatchMessage_login hkind] at hresponses ⊢
    have houtcome := dispatchLogin_outcome isRelogin origin s.toState msg.cmdObject w.toWorld
    generalize (dispatchLogin isRelogin origin s.toState msg.cmdObject w.toWorld).1 = action
      at houtcome hresponses ⊢
    cases houtcome with
    | error => cases hresponses
    | failed reason =>
      obtain rfl := List.mem_singleton.mp hresponses
      have hresp : TextId (loginResponse isRelogin ⟨-1, failureXml reason⟩)
          (responseMsgId isRelogin) := textId_cgiResponse _ _
      have hne : responseMsgId isRelogin ≠ 50009 := by cases isRelogin <;> decide
      exact absurd (hresp.unique ⟨entries, hread, hid⟩) hne
    | armed camera auth resp hensure =>
      exact ⟨_, livePort_ensured hensure, livePort_loginResponses hresponses hread hid⟩

end Dispatch

/-! ## The endpoints of a track -/

namespace HttpFlv

/-- The number of a track in its endpoints. -/
def trackNumber : Stream → Str
  | .video => "1".toList
  | .audio => "2".toList

/-- The manifest of a track. -/
def playlistPath (track : Stream) : Str :=
  "/live/playlist".toList ++ trackNumber track ++ ".json".toList

/-- The file of a track. -/
def streamFile (track : Stream) : Str := "stream".toList ++ trackNumber track ++ ".flv".toList

/-- The bytes of a track. -/
def streamPath (track : Stream) : Str := "/live/".toList ++ streamFile track

/-- The URL of a track, at the port of a server. -/
def streamUrl (port : UInt16) (track : Stream) : Str :=
  "http://127.0.0.1:".toList ++ numeral port.toNat ++ streamPath track

/-- The file header of a track. -/
def streamHeader : Stream → List UInt8
  | .video => flvHeader
  | .audio => flvAudioHeader

/-- Subscribe to the broadcast of a track. -/
def subscribe (v : VideoServer) : Stream → Option ℕ
  | .video => v.subscribeVideo
  | .audio => v.subscribeAudio

/-- A request of a page. -/
def pageRequest (path : Str) (headers : List (Str × List UInt8)) : Request := ⟨.get, path, headers⟩

/-- The manifest, as JSON. -/
def manifest (port : UInt16) (track : Stream) : Json :=
  .object [("type".toList, .string "flv".toList), ("url".toList, .string (streamUrl port track))]

/-- Printable ASCII is not escaped, but for the quotation mark and the backslash. -/
theorem escape_eq_self {text : Str}
    (h : ∀ c ∈ text, 32 ≤ c.toNat ∧ c ≠ '\"' ∧ c ≠ '\\') : escape text = text := by
  rw [escape]
  induction text with
  | nil => rfl
  | cons c text ih =>
    obtain ⟨hcontrol, hquote, hslash⟩ := h c List.mem_cons_self
    have hplain : escapeChar c = [c] := by
      simp only [escapeChar, if_neg hquote, if_neg hslash]
      repeat rw [if_neg (by omega)]
    rw [List.flatMap_cons, hplain, ih fun d hd => h d (List.mem_cons_of_mem c hd)]
    rfl

theorem isDigit_plain {c : Char} (h : c.isDigit = true) :
    32 ≤ c.toNat ∧ c ≠ '\"' ∧ c ≠ '\\' := by
  refine ⟨?_, ?_, ?_⟩
  · simp only [Char.isDigit, Bool.and_eq_true, decide_eq_true_eq] at h
    have hlow : 48 ≤ c.toNat := h.1
    omega
  · rintro rfl
    exact absurd h (by decide)
  · rintro rfl
    exact absurd h (by decide)

theorem escape_streamUrl (port : UInt16) (track : Stream) :
    escape (streamUrl port track) = streamUrl port track := by
  apply escape_eq_self
  intro c hc
  have hscheme : ∀ d ∈ "http://127.0.0.1:".toList, 32 ≤ d.toNat ∧ d ≠ '\"' ∧ d ≠ '\\' :=
    forall_of_all (by decide)
  have hpath : ∀ d ∈ streamPath track, 32 ≤ d.toNat ∧ d ≠ '\"' ∧ d ≠ '\\' := by
    cases track <;> exact forall_of_all (by decide)
  rcases List.mem_append.mp hc with hc | hc
  · rcases List.mem_append.mp hc with hc | hc
    · exact hscheme c hc
    · exact isDigit_plain (isDigit_of_mem_numeral hc)
  · exact hpath c hc

/-- The URL is that of the server at the port. -/
theorem parse_streamUrl (port : UInt16) (track : Stream) :
    OriginInfo.parse (streamUrl port track) = some ⟨"127.0.0.1".toList, port⟩ := by
  have hplain : ∀ c ∈ "127.0.0.1".toList,
      isWhitespace c = false ∧ c ≠ '/' ∧ c ≠ ':' ∧ c ≠ '[' := forall_of_all (by decide)
  have hscheme : "http://127.0.0.1:".toList =
      "http".toList ++ "://".toList ++ ("127.0.0.1".toList ++ [':']) := by decide
  have hserialise : ∀ path : Str, "http://127.0.0.1:".toList ++ numeral port.toNat ++ '/' :: path =
      OriginInfo.serialise .http (.name "127.0.0.1".toList (List.cons_ne_nil _ _) hplain)
        (some port) (some path) := by
    intro path
    refine (congrArg (· ++ numeral port.toNat ++ '/' :: path) hscheme).trans ?_
    simp only [OriginInfo.serialise, OriginInfo.authority, OriginInfo.portText,
      OriginInfo.Host.written, OriginInfo.Scheme.text, Option.elim_some, List.append_assoc,
      List.cons_append, List.nil_append]
  obtain ⟨path, hpath⟩ : ∃ path, streamPath track = '/' :: path := by
    cases track <;> exact ⟨_, rfl⟩
  have hurl := (congrArg ("http://127.0.0.1:".toList ++ numeral port.toNat ++ ·) hpath).trans
    (hserialise path)
  have hparse := congrArg OriginInfo.parse hurl
  rw [OriginInfo.parse_serialise, if_neg fun hnone => Option.some_ne_none port hnone.2] at hparse
  exact hparse

theorem print_manifest (port : UInt16) (track : Stream) :
    (manifest port track).print =
      "\x7b\"type\":\"flv\",\"url\":\"".toList ++ (streamUrl port track ++ "\"\x7d".toList) := by
  have hhead : '\x7b' :: (printString "type".toList ++ ':' :: printString "flv".toList) ++
      ',' :: (printString "url".toList ++ [':', '\"']) =
        "\x7b\"type\":\"flv\",\"url\":\"".toList := by decide
  have htail : "\"\x7d".toList = ['\"', '\x7d'] := by decide
  have hurl : printString (streamUrl port track) = '\"' :: streamUrl port track ++ ['\"'] := by
    rw [printString, escape_streamUrl]
  refine Eq.trans ?_ (congrArg₂ (· ++ ·) hhead (congrArg (streamUrl port track ++ ·) htail.symm))
  simp only [manifest, print, printEntries, intercalate_cons_cons, intercalate_singleton, hurl,
    List.append_assoc, List.cons_append, List.nil_append]

/-- **The manifest** that is served is JSON, and it has the URL of the track. -/
theorem servePlaylist_body (port : UInt16) (track : Stream) (origin : Option Str) :
    (servePlaylist port (streamFile track) origin).body =
      .fixed (manifest port track).print := by
  have hhead : "\x7b\"type\":\"flv\",\"url\":\"http://127.0.0.1:".toList =
      "\x7b\"type\":\"flv\",\"url\":\"".toList ++ "http://127.0.0.1:".toList := by decide
  refine congrArg Body.fixed (Eq.trans ?_ (print_manifest port track).symm)
  have hbody := congrArg (fun head : Str => head ++ numeral port.toNat ++ "/live/".toList ++
    streamFile track ++ "\"\x7d".toList) hhead
  have hassoc : ∀ a b c d e f : Str, a ++ b ++ c ++ d ++ e ++ f = a ++ (b ++ c ++ (d ++ e) ++ f) := by
    simp
  exact hbody.trans (hassoc _ _ _ _ _ _)

variable {track : Stream} {headers : List (Str × List UInt8)} {v : VideoServer}

/-- What is at a live path is served to whom the gate lets through. -/
theorem handleRequest_served {req : Request} {port : UInt16} {served : Response}
    (hmethod : req.method = .get) (hserve : serveLive v port req.origin req.path = some served)
    (h : v.originAllowed req.origin = true) : handleRequest req v port = served := by
  rw [Request.origin] at hserve h
  simp only [handleRequest, hmethod, hserve]
  exact if_pos h

theorem serveLive_playlist (port : UInt16) (origin : Option Str) (track : Stream) :
    serveLive v port origin (playlistPath track) =
      some (servePlaylist port (streamFile track) origin) := by
  cases track <;> rfl

theorem serveLive_stream (port : UInt16) (origin : Option Str) {rx : ℕ}
    (hlive : subscribe v track = some rx) :
    serveLive v port origin (streamPath track) =
      some (flvStreamResponse rx (streamHeader track) origin) := by
  cases track with
  | video =>
    have hvideo : v.subscribeVideo = some rx := hlive
    refine congrArg some ?_
    rw [serveVideoFlvStream, hvideo]
    rfl
  | audio =>
    have haudio : v.subscribeAudio = some rx := hlive
    refine congrArg some ?_
    rw [serveAudioFlvStream, haudio]
    rfl

/-- **The manifest of a track** is served to whom the gate lets through. -/
theorem handleRequest_playlist (port : UInt16)
    (h : v.originAllowed (pageRequest (playlistPath track) headers).origin = true) :
    (handleRequest (pageRequest (playlistPath track) headers) v port).body =
      .fixed (manifest port track).print := by
  rw [handleRequest_served rfl (serveLive_playlist port _ track) h, servePlaylist_body]

/-- **The bytes of a track** are served to whom the gate lets through, if the track is live. -/
theorem handleRequest_stream (port : UInt16) {rx : ℕ}
    (h : v.originAllowed (pageRequest (streamPath track) headers).origin = true)
    (hlive : subscribe v track = some rx) :
    (handleRequest (pageRequest (streamPath track) headers) v port).body =
      .stream (streamHeader track) rx := by
  rw [handleRequest_served rfl (serveLive_stream port _ hlive) h]
  rfl

/-! ## What a response reveals -/

/-- The `Origin` that the browser finds echoed in a response. -/
def Response.echo (resp : Response) : Option Str :=
  resp.headers.lookup "Access-Control-Allow-Origin".toList

/-- The endpoints that have something for the page of a camera: the manifests, and the tracks that
are live. -/
def Request.Serves (req : Request) (v : VideoServer) : Prop :=
  req.method = .get ∧ ∃ track, req.path = playlistPath track ∨
    (req.path = streamPath track ∧ (subscribe v track).isSome)

theorem echo_servePlaylist (port : UInt16) (file : Str) (origin : Option Str) :
    (servePlaylist port file origin).echo = origin := by
  cases origin <;> rfl

theorem echo_flvStreamResponse (rx : ℕ) (header : List UInt8) (origin : Option Str) :
    (flvStreamResponse rx header origin).echo = origin := by
  cases origin <;> rfl

/-- What is at a live path. -/
theorem serveLive_cases {path : Str} {served : Response} {origin : Option Str} {port : UInt16}
    (h : serveLive v port origin path = some served) :
    (∃ track, path = playlistPath track ∧ served = servePlaylist port (streamFile track) origin) ∨
      ∃ track, path = streamPath track ∧
        ((subscribe v track = none ∧ ∃ msg, served = notFoundResponse msg) ∨
          ∃ rx, subscribe v track = some rx ∧
            served = flvStreamResponse rx (streamHeader track) origin) := by
  unfold serveLive at h
  split_ifs at h with hpath1 hpath2 hpath3 hpath4
  · exact .inl ⟨.video, hpath1, (Option.some.inj h).symm⟩
  · exact .inl ⟨.audio, hpath2, (Option.some.inj h).symm⟩
  · refine .inr ⟨.video, hpath3, ?_⟩
    rw [serveVideoFlvStream] at h
    cases hlive : v.subscribeVideo with
    | none =>
      rw [hlive] at h
      exact .inl ⟨hlive, _, (Option.some.inj h).symm⟩
    | some rx =>
      rw [hlive] at h
      exact .inr ⟨rx, hlive, (Option.some.inj h).symm⟩
  · refine .inr ⟨.audio, hpath4, ?_⟩
    rw [serveAudioFlvStream] at h
    cases hlive : v.subscribeAudio with
    | none =>
      rw [hlive] at h
      exact .inl ⟨hlive, _, (Option.some.inj h).symm⟩
    | some rx =>
      rw [hlive] at h
      exact .inr ⟨rx, hlive, (Option.some.inj h).symm⟩

/-- A response that is not served at a live path reveals nothing. -/
theorem handleRequest_cases (req : Request) (v : VideoServer) (port : UInt16) :
    (req.method = .get ∧ v.originAllowed req.origin = true ∧
      serveLive v port req.origin req.path = some (handleRequest req v port)) ∨
    ((handleRequest req v port).echo = none ∧ (handleRequest req v port).subscription = none) := by
  cases hmethod : req.method with
  | options =>
    refine .inr ?_
    simp only [handleRequest, hmethod]
    exact ⟨rfl, rfl⟩
  | other name =>
    refine .inr ?_
    simp only [handleRequest, hmethod]
    exact ⟨rfl, rfl⟩
  | get =>
    cases hserve : serveLive v port req.origin req.path with
    | some served =>
      by_cases hallowed : v.originAllowed req.origin = true
      · exact .inl ⟨rfl, hallowed, by rw [handleRequest_served hmethod hserve hallowed]⟩
      · refine .inr ?_
        rw [Request.origin] at hserve hallowed
        simp only [handleRequest, hmethod, hserve, if_neg hallowed]
        exact ⟨rfl, rfl⟩
    | none =>
      refine .inr ?_
      rw [Request.origin] at hserve
      simp only [handleRequest, hmethod, hserve]
      split_ifs <;> exact ⟨rfl, rfl⟩

/-- An armed gate lets through the page of the camera, and requests without an `Origin`. -/
theorem originAllowed_iff {claimedHost : Str} {httpPort : UInt16}
    (harmed : v.armedOrigin = some (.ofCamera claimedHost httpPort)) (origin : Option Str) :
    v.originAllowed origin = true ↔
      ∀ raw, origin = some raw → OriginInfo.parse raw = some (.ofCamera claimedHost httpPort) := by
  cases origin with
  | none =>
    refine iff_of_true ?_ (by rintro _ ⟨⟩)
    simp only [VideoServer.originAllowed, harmed]
  | some raw =>
    rw [originAllowed_some harmed]
    constructor
    · rintro h raw ⟨⟩
      exact h
    · intro h
      exact h raw rfl

/-- An armed gate lets through the requests whose first `Origin` header, if there is one, is not
foreign, or is not visible ASCII. -/
theorem originAllowed_headers {claimedHost : Str} {httpPort : UInt16}
    (harmed : v.armedOrigin = some (.ofCamera claimedHost httpPort)) (req : Request) :
    v.originAllowed req.origin = true ↔ ∀ value ∈ req.origins.head?,
      ForeignTo (.ofCamera claimedHost httpPort) value → ∃ b ∈ value, isVisibleAscii b = false := by
  rw [← Bool.not_eq_false, denied_iff harmed req]
  simp only [not_exists, not_and, not_forall, Bool.not_eq_true, exists_prop]

/-- The `Origin` that is looked at is the text of the first `Origin` header. -/
theorem origin_eq_some {req : Request} {o : Str} :
    req.origin = some o ↔ ∃ value ∈ req.origins.head?, headerText value = some o := by
  rw [origin_eq, Option.bind_eq_some_iff]
  rfl

/-- An `Origin` is echoed to the page of the camera. -/
theorem echo_handleRequest {claimedHost : Str} {httpPort : UInt16}
    (harmed : v.armedOrigin = some (.ofCamera claimedHost httpPort)) (req : Request)
    (port : UInt16) (o : Str) :
    (handleRequest req v port).echo = some o ↔ req.Serves v ∧
      (∃ value ∈ req.origins.head?, headerText value = some o) ∧
        OriginInfo.parse o = some (.ofCamera claimedHost httpPort) := by
  rw [← origin_eq_some]
  constructor
  · intro hecho
    rcases handleRequest_cases req v port with ⟨hmethod, hallowed, hserve⟩ | ⟨hnone, -⟩
    · rcases serveLive_cases hserve with ⟨track, hpath, heq⟩ | ⟨track, hpath, hstream⟩
      · rw [heq, echo_servePlaylist] at hecho
        refine ⟨⟨hmethod, track, .inl hpath⟩, hecho, ?_⟩
        exact (originAllowed_iff harmed _).mp hallowed o hecho
      · rcases hstream with ⟨-, reason, heq⟩ | ⟨rx, hlive, heq⟩
        · rw [heq] at hecho
          cases hecho
        · rw [heq, echo_flvStreamResponse] at hecho
          refine ⟨⟨hmethod, track, .inr ⟨hpath, Option.isSome_of_eq_some hlive⟩⟩, hecho, ?_⟩
          exact (originAllowed_iff harmed _).mp hallowed o hecho
    · rw [hnone] at hecho
      cases hecho
  · rintro ⟨⟨hmethod, track, hpath⟩, horigin, hparse⟩
    have hallowed : v.originAllowed req.origin = true := by
      rw [horigin]
      exact (originAllowed_some harmed o).mpr hparse
    rcases hpath with hpath | ⟨hpath, hlive⟩
    · have hserve := @serveLive_playlist v port req.origin track
      rw [← hpath] at hserve
      rw [handleRequest_served hmethod hserve hallowed, echo_servePlaylist, horigin]
    · obtain ⟨rx, hrx⟩ := Option.isSome_iff_exists.mp hlive
      have hserve := serveLive_stream port req.origin hrx
      rw [← hpath] at hserve
      rw [handleRequest_served hmethod hserve hallowed, echo_flvStreamResponse, horigin]

/-- A subscription is handed out for a live track, if the gate lets the request through. -/
theorem subscription_handleRequest (req : Request) (port : UInt16) (rx : ℕ) :
    (handleRequest req v port).subscription = some rx ↔
      (req.method = .get ∧ ∃ track, req.path = streamPath track ∧ subscribe v track = some rx) ∧
        v.originAllowed req.origin = true := by
  constructor
  · intro hsubscription
    rcases handleRequest_cases req v port with ⟨hmethod, hallowed, hserve⟩ | ⟨-, hnone⟩
    · refine ⟨⟨hmethod, ?_⟩, hallowed⟩
      rcases serveLive_cases hserve with ⟨track, hpath, heq⟩ | ⟨track, hpath, hstream⟩
      · rw [heq] at hsubscription
        cases hsubscription
      · rcases hstream with ⟨-, reason, heq⟩ | ⟨rx', hlive, heq⟩
        · rw [heq] at hsubscription
          cases hsubscription
        · rw [heq] at hsubscription
          obtain rfl : rx' = rx := Option.some.inj hsubscription
          exact ⟨track, hpath, hlive⟩
    · rw [hnone] at hsubscription
      cases hsubscription
  · rintro ⟨⟨hmethod, track, hpath, hlive⟩, hallowed⟩
    have hserve := serveLive_stream port req.origin hlive
    rw [← hpath] at hserve
    rw [handleRequest_served hmethod hserve hallowed]
    rfl

/-- **To whom a response reveals something**, while a camera is armed. An `Origin` is echoed if and
only if it is that of the camera's page, it is the first of the request, and the request is for a
manifest or for a track that is live. Bytes of a track are sent if and only if the request is for the
track, which is live, and has no `Origin`, or the first one is that of the camera's page, or is not
visible ASCII. -/
theorem handleRequest_reveals {claimedHost : Str} {httpPort : UInt16}
    (harmed : v.armedOrigin = some (.ofCamera claimedHost httpPort)) (req : Request)
    (port : UInt16) :
    (∀ o, (handleRequest req v port).echo = some o ↔ req.Serves v ∧
      (∃ value ∈ req.origins.head?, headerText value = some o) ∧
        OriginInfo.parse o = some (.ofCamera claimedHost httpPort)) ∧
    ∀ rx, (handleRequest req v port).subscription = some rx ↔
      (req.method = .get ∧ ∃ track, req.path = streamPath track ∧ subscribe v track = some rx) ∧
        ∀ value ∈ req.origins.head?, ForeignTo (.ofCamera claimedHost httpPort) value →
          ∃ b ∈ value, isVisibleAscii b = false := by
  refine ⟨echo_handleRequest harmed req port, fun rx => ?_⟩
  rw [← originAllowed_headers harmed, subscription_handleRequest]

/-- The page of the camera has its origin echoed, whatever comes behind that. Behind a foreign origin
it gets no stream, and without an origin it gets the stream. -/
theorem handleRequest_reveals_page :
    (handleRequest (streamRequest [cameraOrigin, foreignOrigin]) liveServer 11000).echo =
        some "http://192.168.1.10:88".toList ∧
      (∀ rx, (handleRequest (streamRequest [foreignOrigin, cameraOrigin]) liveServer
        11000).subscription ≠ some rx) ∧
      (handleRequest (streamRequest []) liveServer 11000).subscription = some 0 := by
  have hreveals := @handleRequest_reveals liveServer "192.168.1.10".toList 88 rfl
  refine ⟨?_, fun rx hrx => ?_, ?_⟩
  · refine ((hreveals _ 11000).1 _).mpr ⟨⟨rfl, .video, .inr ⟨rfl, rfl⟩⟩, ?_, by decide +kernel⟩
    exact ⟨cameraOrigin, rfl, by decide⟩
  · obtain ⟨-, hgate⟩ := ((hreveals _ 11000).2 rx).mp hrx
    obtain ⟨b, hb, hhidden⟩ := hgate foreignOrigin rfl foreignTo_foreignOrigin
    have hvisible : ∀ b ∈ foreignOrigin, isVisibleAscii b = true := List.all_eq_true.mp rfl
    exact Bool.false_ne_true (hhidden.symm.trans (hvisible b hb))
  · exact ((hreveals _ 11000).2 0).mpr ⟨⟨rfl, .video, rfl, rfl⟩, by rintro _ ⟨⟩⟩

end HttpFlv

namespace Dispatch

open Login
open HttpFlv (pageRequest playlistPath streamPath streamUrl streamHeader handleRequest)

variable {origin : Option OriginInfo} {s : Session} {msg : WsMessage} {w : World} {text : Str}
  {entries : List (Str × Json)}

/-- **From the login to the stream**: the init info that a message is answered with has the live port
of the session. The server at this port answers a page that the gate lets through with a manifest
whose URL is at the same port, and behind this URL is the live broadcast of the track. -/
theorem playback (htext : text ∈ (s.processMessage origin msg w).2.2)
    (hread : read text = some (.object entries))
    (hid : lookup "msgid".toList entries = some (.nat 50009)) :
    ∃ port : UInt16, (s.processMessage origin msg w).1.session.livePort = some port ∧
      lookup "livePort".toList entries = some (.nat port.toNat) ∧
      ∀ (v : VideoServer) (track : Stream) (headers : List (Str × List UInt8)),
        v.originAllowed (pageRequest (playlistPath track) headers).origin = true →
        ∃ manifest url, (handleRequest (pageRequest (playlistPath track) headers) v port).body =
            .fixed manifest ∧
          (∃ playlist, read manifest = some (.object playlist) ∧
            lookup "url".toList playlist = some (.string url)) ∧
          url = "http://127.0.0.1:".toList ++ numeral port.toNat ++ streamPath track ∧
          OriginInfo.parse url = some ⟨"127.0.0.1".toList, port⟩ ∧
          ∀ rx, HttpFlv.subscribe v track = some rx →
            (handleRequest (pageRequest (streamPath track) headers) v port).body =
              .stream (streamHeader track) rx := by
  obtain ⟨port, hsession, hport⟩ := livePort_told htext hread hid
  refine ⟨port, hsession, hport, fun v track headers hallowed => ?_⟩
  refine ⟨(HttpFlv.manifest port track).print, streamUrl port track, ?_, ?_, rfl, ?_, ?_⟩
  · exact HttpFlv.handleRequest_playlist port hallowed
  · exact ⟨_, read_print rfl, rfl⟩
  · exact HttpFlv.parse_streamUrl port track
  · intro rx hlive
    exact HttpFlv.handleRequest_stream port hallowed hlive

/-- The page of the camera gets the audio of its session. -/
theorem playback_login :
    ∃ port : UInt16, ((Session.new (.new 11000 1) 0).processMessage Session.cameraPage
        Session.loginMessage Session.accepting).1.session.livePort = some port ∧
      (handleRequest (pageRequest (streamPath .audio) []) HttpFlv.liveServer port).body =
        .stream flvAudioHeader 0 := by
  have hresponses : ((Session.new (.new 11000 1) 0).processMessage Session.cameraPage
      Session.loginMessage Session.accepting).2.2 =
        loginResponses false Session.accepting.toWorld 11000 ⟨0, []⟩ := by
    decide +kernel
  obtain ⟨entries, hread, hid, -⟩ :=
    read_initInfo (Cgi.gatherInitInfo Session.accepting.query 11000).2
  have hinit : flatResponse 50009 (Cgi.gatherInitInfo Session.accepting.query 11000).2.fields ∈
      loginResponses false Session.accepting.toWorld 11000 ⟨0, []⟩ := by
    apply List.mem_cons_of_mem
    exact List.mem_append_right _ (List.mem_singleton_self _)
  rw [← hresponses] at hinit
  obtain ⟨port, hsession, -, hserved⟩ := playback hinit hread hid
  obtain ⟨manifest, url, -, -, -, -, hstream⟩ := hserved HttpFlv.liveServer .audio [] rfl
  exact ⟨port, hsession, hstream 0 rfl⟩

end Dispatch

end Fosipcore
