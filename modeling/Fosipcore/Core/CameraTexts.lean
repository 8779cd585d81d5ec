import Fosipcore.Core.LogExcerpts
import Fosipcore.Core.Playback
import Fosipcore.Proxy.Bodies
import Fosipcore.Proxy.Settings

/-!
# What the browser reads of the camera

The body of the camera goes through a chunked read, a replacing UTF-8 decoder and the text of a JSON
string, or through Base64. What the browser reads at the other end is what the camera has sent.

## Main definitions

* `Camera`, `Camera.world`: a camera that answers in bytes
* `Finds`: fields that the browser finds in a text
* `base64Decode`: how the browser decodes an image

## Main results

* `base64Decode_base64Encode`: images come through
* `cgi_told`, `snapshot_told`: what the browser is told of a CGI request, and of a snapshot
* `settings_told`: what the browser is told of the settings behind a login
-/

namespace Fosipcore

namespace Dispatch

open Text Json Login MsgId
open Cgi hiding gatherInitInfo

/-! ## Cameras -/

/-- What a camera answers to a login, to the queries behind it, and to the other requests by their
URLs. A failure to connect has a text. -/
structure Camera where
  login : Except Str RawResponse
  query : Query → Except Str RawResponse
  get : Str → Except Str RawResponse
  snapshot : Str → Except Str RawResponse

/-- The answers as the handlers see them. -/
def Camera.world (camera : Camera) (lookupHost : Option (List SocketAddr))
    (probe : ℕ → UInt16 → Bool) : World where
  lookupHost := lookupHost
  login := (camera.login.bind RawResponse.http).toOption
  query q := ((camera.query q).bind RawResponse.http).toOption
  probe := probe
  get url := (camera.get url).bind RawResponse.http
  snapshot url := (camera.snapshot url).bind fun resp => resp.readCapped.map base64Encode

/-! ## What the browser finds -/

/-- The browser reads an object, and finds the fields in it. -/
def Finds (text : Str) (fields : List (Str × Json)) : Prop :=
  ∃ entries, read text = some (.object entries) ∧
    ∀ field ∈ fields, lookup field.1 entries = some field.2

/-- A text has one value for a key. -/
theorem Finds.unique {text : Str} {fields fields' : List (Str × Json)} (h : Finds text fields)
    (h' : Finds text fields') {key : Str} {value value' : Json} (hvalue : (key, value) ∈ fields)
    (hvalue' : (key, value') ∈ fields') : value = value' := by
  obtain ⟨entries, hread, hfields⟩ := h
  obtain ⟨entries', hread', hfields'⟩ := h'
  obtain rfl := Json.object.inj (Option.some.inj (hread.symm.trans hread'))
  exact Option.some.inj ((hfields _ hvalue).symm.trans (hfields' _ hvalue'))

/-- **A flat response** tells its id and its fields. -/
theorem finds_flatResponse {msgId : ℕ} {cmd : List (Str × Json)}
    (hintegral : ∀ field ∈ cmd, integral field.2 = true) (hkeys : (keys cmd).Nodup)
    (hid : "msgid".toList ∉ keys cmd) :
    Finds (flatResponse msgId cmd) (("msgid".toList, .nat msgId) :: cmd) := by
  obtain ⟨entries, hread, hlookup⟩ := read_flatResponse hintegral hkeys
  refine ⟨entries, hread, List.forall_mem_cons.mpr ⟨?_, fun field hfield => ?_⟩⟩
  · have hnone : lookup "msgid".toList cmd = none :=
      Option.isNone_iff_eq_none.mp (by simpa using mt isSome_lookup.mp hid)
    exact (hlookup _).trans (by rw [hnone]; rfl)
  · obtain ⟨key, value⟩ := field
    have hvalue : lookup key cmd = some value := lookup_of_mem hkeys hfield
    exact (hlookup key).trans (by rw [hvalue]; rfl)

/-! ## Base64 -/

/-- The six bits of a character. -/
def base64Value (c : Char) : Option ℕ := base64Alphabet.findIdx? (· = c)

/-- Decode standard Base64 with padding: four characters are three bytes, and fewer at the end. -/
def base64Decode : Str → Option (List UInt8)
  | [] => some []
  | a :: b :: c :: d :: rest => do
    let a ← base64Value a
    let b ← base64Value b
    if rest = [] ∧ c = '=' ∧ d = '=' then
      return [.ofNat (a * 4 + b / 16)]
    else
      let c ← base64Value c
      if rest = [] ∧ d = '=' then
        let n := (a * 64 + b) * 64 + c
        return [.ofNat (n / 1024), .ofNat (n / 4)]
      else
        let d ← base64Value d
        let n := ((a * 64 + b) * 64 + c) * 64 + d
        return .ofNat (n / 65536) :: .ofNat (n / 256) :: .ofNat n :: (← base64Decode rest)
  | _ => none

theorem base64Value_base64Char (n : ℕ) : base64Value (base64Char n) = some (n % 64) := by
  have hall : ∀ i : Fin 64, base64Value (base64Char i) = some i.val := by decide +kernel
  have hmod : base64Char n = base64Char (n % 64) := by rw [base64Char, base64Char, Nat.mod_mod]
  rw [hmod]
  exact hall ⟨n % 64, Nat.mod_lt _ (Nat.succ_pos 63)⟩

theorem base64Char_ne_padding (n : ℕ) : base64Char n ≠ '=' := by
  intro h
  have hvalue := base64Value_base64Char n
  rw [h] at hvalue
  cases (show base64Value '=' = none by decide +kernel).symm.trans hvalue

theorem ofNat_eq {n : ℕ} {b : UInt8} (h : n % 256 = b.toNat) : UInt8.ofNat n = b := by
  apply UInt8.toNat_inj.mp
  rw [UInt8.toNat_ofNat', h]

/-- **Images come through**: the browser decodes what has been encoded. -/
theorem base64Decode_base64Encode (bytes : List UInt8) :
    base64Decode (base64Encode bytes) = some bytes := by
  induction bytes using base64Encode.induct with
  | case1 a b c rest ih =>
    have ha := a.toNat_lt
    have hb := b.toNat_lt
    have hc := c.toNat_lt
    rw [base64Encode]
    simp only [List.cons_append, List.nil_append, base64Decode, base64Value_base64Char,
      Option.bind_eq_bind, Option.bind_some, base64Char_ne_padding, and_false, if_false, ih,
      Option.pure_def]
    rw [ofNat_eq (b := a) (by omega), ofNat_eq (b := b) (by omega), ofNat_eq (b := c) (by omega)]
  | case2 a b =>
    have ha := a.toNat_lt
    have hb := b.toNat_lt
    rw [base64Encode]
    simp only [base64Decode, base64Value_base64Char, Option.bind_eq_bind, Option.bind_some,
      base64Char_ne_padding, and_false, false_and, if_false, and_self, if_true, Option.pure_def]
    rw [ofNat_eq (b := a) (by omega), ofNat_eq (b := b) (by omega)]
  | case3 a =>
    have ha := a.toNat_lt
    rw [base64Encode]
    simp only [base64Decode, base64Value_base64Char, Option.bind_eq_bind, Option.bind_some,
      and_self, if_true, Option.pure_def]
    rw [ofNat_eq (b := a) (by omega)]
  | case4 => rfl

/-! ## A camera -/

/-- An element of a document. -/
def sampleElement (name : Str) (children : List Xml) : Xml := .element (.ofText name) children

theorem sampleText_plain : '<' ∉ "77".toList := by decide

/-- A document with the volume. -/
def sampleVolume : List Xml :=
  [sampleElement "CGI_Result".toList
    [sampleElement "volume".toList [.text "77".toList sampleText_plain]]]

/-- A camera that accepts every login, and tells the volume. -/
def sampleCamera : Camera where
  login := .ok ⟨200, "200 OK".toList, none, []⟩
  query q :=
    if q = .getAudioSetting then
      .ok ⟨200, "200 OK".toList, none, [.ok (encodeUtf8 (Xml.render sampleVolume))]⟩
    else .error []
  get _ := .ok ⟨200, "200 OK".toList, some 2, [.ok [0x41], .ok [0x42]]⟩
  snapshot _ := .ok ⟨200, "200 OK".toList, none, [.ok [0xff, 0xd8], .ok [0xff]]⟩

/-- A session with credentials and a camera. -/
def sampleSession : Session where
  session := ⟨some ⟨"192.168.1.10".toList, 88, 88, ⟨.v4 ⟨192, 168, 1, 10⟩, 88⟩⟩, some "admin".toList,
    some "x".toList, some 0, some 11000⟩
  videoListener := some 0
  pool := .new 11000 1
  servers := 1
  streamType := 0

/-! ## Requests -/

variable {origin : Option OriginInfo} {s : Session} {msg : WsMessage} {camera : Camera}
  {lookupHost : Option (List SocketAddr)} {probe : ℕ → UInt16 → Bool}

theorem finds_cgiResponse (msgId : ℕ) (resp : CgiResponse) :
    Finds (flatResponse msgId resp.fields) [("msgid".toList, .nat msgId),
      ("result".toList, .number (.int resp.result)), ("response".toList, .string resp.response)] := by
  apply finds_flatResponse
  · simp [CgiResponse.fields, integral]
  · rw [keys_cgiResponse]
    decide
  · rw [keys_cgiResponse]
    decide

/-- No result is found in an error response. -/
theorem not_finds_errorResponse {msgId : ℕ} {e : Str} {fields : List (Str × Json)} {value : Json}
    (hresult : ("result".toList, value) ∈ fields) : ¬ Finds (errorResponse msgId e) fields := by
  rintro ⟨entries, hread, hfields⟩
  have hcmd : ∀ cmd ∈ (WsMessage.withCmd msgId (CgiResponse.fields ⟨-1, failureXml e⟩)).cmdObject,
      integral cmd = true := by
    intro cmd hcmd
    obtain rfl := Option.some.inj hcmd
    apply integral_insertAll
    · simp [CgiResponse.fields, integral]
    · exact List.forall_mem_nil _
  obtain rfl := Json.object.inj (Option.some.inj ((read_message hcmd).symm.trans hread))
  cases (hfields _ hresult).symm.trans (show lookup "result".toList (messageEntries
    (WsMessage.withCmd msgId (CgiResponse.fields ⟨-1, failureXml e⟩))) = none from rfl)

theorem responses_cgi (hmsg : msg.msgId = wsRequestCgi) (w : World) :
    (s.processMessage origin msg w).2.2 =
      [okOrError responseRequestCgi (handleCgi s.session msg.cmdObject w)] := by
  have hdispatch : (dispatchMessage origin s.toState msg w).1.responses =
      [okOrError responseRequestCgi (handleCgi s.session msg.cmdObject w)] := by
    simp only [dispatchMessage, hmsg]
  exact hdispatch

theorem responses_snapshot (hmsg : msg.msgId = wsRequestSnap) (w : World) :
    (s.processMessage origin msg w).2.2 =
      [okOrError responseRequestSnap (handleSnapshot s.session w)] := by
  have hdispatch : (dispatchMessage origin s.toState msg w).1.responses =
      [okOrError responseRequestSnap (handleSnapshot s.session w)] := by
    simp only [dispatchMessage, hmsg]
  exact hdispatch

theorem authenticated_eq {session : SessionState} {user pwd : Str} {info : CameraInfo}
    (huser : session.user = some user) (hpwd : session.pwd = some pwd)
    (hcamera : session.camera = some info) :
    authenticated session = .ok (user, pwd, info) := by
  simp only [authenticated, huser, hpwd, hcamera]

/-- What is answered to a CGI request of a session with credentials and a camera. -/
theorem handleCgi_eq {cmd : CgiCmd} {user pwd : Str} {info : CameraInfo}
    (hcmd : msg.cmdObject.bind CgiCmd.fromValue = some cmd) (huser : s.session.user = some user)
    (hpwd : s.session.pwd = some pwd) (hcamera : s.session.camera = some info) (w : World) :
    handleCgi s.session msg.cmdObject w = (w.get (cgiUrl info user pwd cmd)).map fun resp =>
      flatResponse responseRequestCgi (cgiResult resp).fields := by
  rw [handleCgi, hcmd]
  simp only [authenticated_eq huser hpwd hcamera, bind, Except.bind]
  cases w.get (cgiUrl info user pwd cmd) <;> rfl

/-- The fields of a response with success. -/
def successFields (response : Str) : List (Str × Json) :=
  [("msgid".toList, .nat 50006), ("result".toList, .number (.int 0)),
    ("response".toList, .string response)]

/-- A response tells of success if and only if it has the result 0. -/
theorem finds_success_iff {resp : CgiResponse} {r : Str} :
    Finds (flatResponse responseRequestCgi resp.fields) (successFields r) ↔
      resp.result = 0 ∧ resp.response = r := by
  constructor
  · intro hfinds
    have hown := finds_cgiResponse responseRequestCgi resp
    have hresult := hown.unique hfinds (List.mem_cons_of_mem _ List.mem_cons_self)
      (List.mem_cons_of_mem _ List.mem_cons_self)
    have hresponse := hown.unique hfinds
      (List.mem_cons_of_mem _ (List.mem_cons_of_mem _ List.mem_cons_self))
      (List.mem_cons_of_mem _ (List.mem_cons_of_mem _ List.mem_cons_self))
    exact ⟨JsonNumber.int.inj (Json.number.inj hresult), Json.string.inj hresponse⟩
  · rintro ⟨hresult, rfl⟩
    have hown := finds_cgiResponse responseRequestCgi resp
    rw [hresult] at hown
    exact hown

theorem cgiResult_iff {resp : HttpResponse} {r : Str} :
    (cgiResult resp).result = 0 ∧ (cgiResult resp).response = r ↔
      resp.isSuccess = true ∧ resp.body = r := by
  rw [cgiResult_result]
  refine and_congr_right fun hsuccess => ?_
  rw [cgiResult, if_pos hsuccess]

/-- **The answers that tell of success** are those of cameras that answer with success and deliver the
body. -/
theorem finds_answer_iff {answer : Except Str RawResponse} {r : Str} :
    Finds (okOrError responseRequestCgi ((answer.bind RawResponse.http).map fun resp =>
      flatResponse responseRequestCgi (cgiResult resp).fields)) (successFields r) ↔
      ∃ resp body, answer = .ok resp ∧ resp.Delivers body ∧
        (200 ≤ resp.status ∧ resp.status < 300) ∧ r = fromUtf8Lossy body := by
  have hresult : ("result".toList, Json.number (.int 0)) ∈ successFields r :=
    List.mem_cons_of_mem _ List.mem_cons_self
  cases answer with
  | error e =>
    refine iff_of_false (not_finds_errorResponse hresult) ?_
    rintro ⟨resp, body, hanswer, -⟩
    cases hanswer
  | ok resp =>
    cases hhttp : resp.http with
    | error e =>
      simp only [Except.bind, hhttp]
      refine iff_of_false (not_finds_errorResponse hresult) ?_
      rintro ⟨resp', body, hanswer, hdelivers, -⟩
      obtain rfl := Except.ok.inj hanswer
      cases hhttp.symm.trans (RawResponse.http_iff.mpr ⟨body, hdelivers, rfl⟩)
    | ok http =>
      obtain ⟨body, hdelivers, rfl⟩ := RawResponse.http_iff.mp hhttp
      simp only [Except.bind, hhttp]
      refine finds_success_iff.trans (cgiResult_iff.trans ?_)
      simp only [HttpResponse.isSuccess, decide_eq_true_eq]
      constructor
      · rintro ⟨hstatus, rfl⟩
        exact ⟨resp, body, rfl, hdelivers, hstatus, rfl⟩
      · rintro ⟨resp', body', hanswer, hdelivers', hstatus, rfl⟩
        obtain rfl := Except.ok.inj hanswer
        have hbody := (RawResponse.readCapped_iff.mpr hdelivers).symm.trans
          (RawResponse.readCapped_iff.mpr hdelivers')
        exact ⟨hstatus, by rw [Except.ok.inj hbody]⟩

/-- **What the browser is told of a CGI request**: there is one response, and it tells of success if
and only if the camera answers with success and delivers the body. The text of the response is then
that of the body; where the body is UTF-8, it comes through unchanged. -/
theorem cgi_told {cmd : CgiCmd} {user pwd : Str} {info : CameraInfo}
    (hmsg : msg.msgId = wsRequestCgi) (hcmd : msg.cmdObject.bind CgiCmd.fromValue = some cmd)
    (huser : s.session.user = some user) (hpwd : s.session.pwd = some pwd)
    (hcamera : s.session.camera = some info) :
    ∃ text, (s.processMessage origin msg (camera.world lookupHost probe)).2.2 = [text] ∧
      (∀ r, Finds text (successFields r) ↔
        ∃ resp body, camera.get (cgiUrl info user pwd cmd) = .ok resp ∧ resp.Delivers body ∧
          (200 ≤ resp.status ∧ resp.status < 300) ∧ r = fromUtf8Lossy body) ∧
      ∀ t resp, camera.get (cgiUrl info user pwd cmd) = .ok resp →
        resp.Delivers (encodeUtf8 t) → 200 ≤ resp.status ∧ resp.status < 300 →
          Finds text (successFields t) := by
  refine ⟨_, responses_cgi hmsg _, ?_⟩
  rw [handleCgi_eq hcmd huser hpwd hcamera]
  refine ⟨fun r => finds_answer_iff, fun t resp hget hdelivers hstatus => ?_⟩
  exact finds_answer_iff.mpr ⟨resp, _, hget, hdelivers, hstatus,
    (fromUtf8Lossy_eq (decodeUtf8_encodeUtf8 t)).symm⟩

/-- A text in two chunks comes through. -/
theorem cgi_told_chunks :
    ∃ text, (sampleSession.processMessage none cgiRequest
        (sampleCamera.world none fun _ _ => true)).2.2 = [text] ∧
      Finds text (successFields "AB".toList) := by
  obtain ⟨text, hresponses, -, hfinds⟩ := @cgi_told none sampleSession cgiRequest sampleCamera none
    (fun _ _ => true) _ _ _ _ rfl rfl rfl rfl rfl
  have hdelivers : RawResponse.Delivers ⟨200, "200 OK".toList, some 2, [.ok [0x41], .ok [0x42]]⟩
      (encodeUtf8 "AB".toList) := by
    refine ⟨?_, ⟨[[0x41], [0x42]], rfl, by decide⟩, by decide⟩
    rintro len ⟨⟩
    decide
  exact ⟨text, hresponses, hfinds _ _ rfl hdelivers (by decide)⟩

/-! ## Snapshots -/

/-- The fields of a snapshot that was taken. -/
def imageFields (img : Str) : List (Str × Json) :=
  [("msgid".toList, .nat 50007), ("result".toList, .number (.int 0)), ("img".toList, .string img)]

theorem finds_image_iff {resp : SnapResponse} {img : Str} :
    Finds (flatResponse responseRequestSnap resp.fields) (imageFields img) ↔
      resp.result = 0 ∧ resp.img = img := by
  have hkeys : keys resp.fields = ["result".toList, "img".toList] := rfl
  have hown : Finds (flatResponse responseRequestSnap resp.fields)
      (("msgid".toList, .nat responseRequestSnap) :: resp.fields) := by
    apply finds_flatResponse
    · simp [SnapResponse.fields, integral]
    · rw [hkeys]
      decide
    · rw [hkeys]
      decide
  obtain ⟨result, img'⟩ := resp
  constructor
  · intro hfinds
    have hresult := hown.unique hfinds (List.mem_cons_of_mem _ List.mem_cons_self)
      (List.mem_cons_of_mem _ List.mem_cons_self)
    have himg := hown.unique hfinds
      (List.mem_cons_of_mem _ (List.mem_cons_of_mem _ List.mem_cons_self))
      (List.mem_cons_of_mem _ (List.mem_cons_of_mem _ List.mem_cons_self))
    exact ⟨JsonNumber.int.inj (Json.number.inj hresult), Json.string.inj himg⟩
  · rintro ⟨rfl, rfl⟩
    exact hown

/-- **What the browser is told of a snapshot**: there is one response, and it has an image if and only
if the camera delivers it, whatever its status is. The image that the browser decodes is the body,
byte for byte. -/
theorem snapshot_told {user pwd : Str} {info : CameraInfo} (hmsg : msg.msgId = wsRequestSnap)
    (huser : s.session.user = some user) (hpwd : s.session.pwd = some pwd)
    (hcamera : s.session.camera = some info) :
    ∃ text, (s.processMessage origin msg (camera.world lookupHost probe)).2.2 = [text] ∧
      ∀ image, (∃ img, Finds text (imageFields img) ∧ base64Decode img = some image) ↔
        ∃ resp, camera.snapshot (proxySnapshotUrl info.addr.display user pwd) = .ok resp ∧
          resp.Delivers image := by
  refine ⟨_, responses_snapshot hmsg _, fun image => ?_⟩
  rw [handleSnapshot, authenticated_eq huser hpwd hcamera]
  simp only [bind, Except.bind, Camera.world, okOrError, pure, Except.pure]
  cases camera.snapshot (proxySnapshotUrl info.addr.display user pwd) with
  | error e =>
    refine iff_of_false ?_ ?_
    · rintro ⟨img, hfinds, -⟩
      cases (finds_image_iff.mp hfinds).1
    · rintro ⟨resp, hanswer, -⟩
      cases hanswer
  | ok resp =>
    cases hbody : resp.readCapped with
    | error e =>
      simp only [hbody, Except.map]
      refine iff_of_false ?_ ?_
      · rintro ⟨img, hfinds, -⟩
        cases (finds_image_iff.mp hfinds).1
      · rintro ⟨resp', hanswer, hdelivers⟩
        obtain rfl := Except.ok.inj hanswer
        cases hbody.symm.trans (RawResponse.readCapped_iff.mpr hdelivers)
    | ok body =>
      simp only [hbody, Except.map]
      constructor
      · rintro ⟨img, hfinds, hdecode⟩
        obtain ⟨-, rfl⟩ := finds_image_iff.mp hfinds
        obtain rfl := Option.some.inj ((base64Decode_base64Encode body).symm.trans hdecode)
        exact ⟨resp, rfl, RawResponse.readCapped_iff.mp hbody⟩
      · rintro ⟨resp', hanswer, hdelivers⟩
        obtain rfl := Except.ok.inj hanswer
        have himage := hbody.symm.trans (RawResponse.readCapped_iff.mpr hdelivers)
        refine ⟨base64Encode body, finds_image_iff.mpr ⟨rfl, rfl⟩, ?_⟩
        rw [base64Decode_base64Encode, Except.ok.inj himage]

/-- An image in two chunks comes through. -/
theorem snapshot_told_chunks :
    ∃ text, (sampleSession.processMessage none (.new wsRequestSnap)
        (sampleCamera.world none fun _ _ => true)).2.2 = [text] ∧
      ∃ img, Finds text (imageFields img) ∧ base64Decode img = some [0xff, 0xd8, 0xff] := by
  obtain ⟨text, hresponses, hfinds⟩ := @snapshot_told none sampleSession (.new wsRequestSnap)
    sampleCamera none (fun _ _ => true) _ _ _ rfl rfl rfl rfl
  refine ⟨text, hresponses, (hfinds _).mpr ⟨_, rfl, ?_⟩⟩
  refine ⟨?_, ⟨[[0xff, 0xd8], [0xff]], rfl, rfl⟩, by decide⟩
  rintro len ⟨⟩

/-! ## Settings -/

/-- The camera answers the queries behind a login with the texts of documents; a query that has none
is not answered. -/
def Camera.Serves (camera : Camera) (docs : Query → Option (List Xml)) : Prop :=
  ∀ q, (docs q = none ∧ ∃ e, (camera.query q).bind RawResponse.http = .error e) ∨
    ∃ nodes resp, docs q = some nodes ∧ camera.query q = .ok resp ∧
      resp.Delivers (encodeUtf8 (Xml.render nodes)) ∧ 200 ≤ resp.status ∧ resp.status < 300

theorem Camera.Serves.answersWith {docs : Query → Option (List Xml)} (h : camera.Serves docs) :
    AnswersWith (camera.world lookupHost probe).query docs := by
  intro q
  have hquery : (camera.world lookupHost probe).query q =
      ((camera.query q).bind RawResponse.http).toOption := rfl
  rw [hquery]
  rcases h q with ⟨hnone, e, herror⟩ | ⟨nodes, resp, hsome, hanswer, hdelivers, hstatus⟩
  · rw [herror, hnone]
    rfl
  · have hhttp := RawResponse.http_iff.mpr ⟨_, hdelivers, rfl⟩
    have hsuccess : HttpResponse.isSuccess ⟨resp.status, resp.statusText,
        fromUtf8Lossy (encodeUtf8 (Xml.render nodes))⟩ = true := decide_eq_true hstatus
    rw [hanswer, hsome, Except.bind, hhttp]
    refine congrArg some ?_
    rw [cgiResult, if_pos hsuccess]
    exact fromUtf8Lossy_eq (decodeUtf8_encodeUtf8 _)

theorem Finds.mono {text : Str} {fields fields' : List (Str × Json)} (h : Finds text fields)
    (hfields : fields' ⊆ fields) : Finds text fields' := by
  obtain ⟨entries, hread, hall⟩ := h
  exact ⟨entries, hread, fun field hfield => hall field (hfields hfield)⟩

theorem finds_productInfo (info : ProductInfo) :
    Finds (flatResponse 50008 info.fields) (("msgid".toList, .nat 50008) :: info.fields) := by
  have hkeys : keys info.fields = keys (ProductInfo.fields ⟨[]⟩) := rfl
  apply finds_flatResponse
  · simp [ProductInfo.fields, integral]
  · rw [hkeys]
    decide
  · rw [hkeys]
    decide

theorem finds_initInfo (info : InitInfo) :
    Finds (flatResponse 50009 info.fields) (("msgid".toList, .nat 50009) :: info.fields) := by
  have hkeys : keys info.fields = keys (InitInfo.fields {}) := rfl
  apply finds_flatResponse
  · simpa [InitInfo.fields, integral, Json.nat] using integralItems_nat info.streamParam
  · rw [hkeys]
    decide
  · rw [hkeys]
    decide

/-- What the browser finds under the id of the product info, and under that of the init info. -/
def FindsSettings (docs : Query → Option (List Xml)) (livePort : Option UInt16) (text : Str) : Prop :=
  (TextId text 50008 → ∃ nodes, docs .getProductAllInfo = some nodes ∧
    Finds text [("response".toList, .string (Xml.render nodes))]) ∧
  (TextId text 50009 → ∃ port, livePort = some port ∧ Finds text (documentInfo docs port).fields)

theorem findsSettings_loginResponses {docs : Query → Option (List Xml)} {world : Login.World}
    (h : AnswersWith world.query docs) (livePort : UInt16) (resp : CgiResponse) :
    ∀ text ∈ loginResponses false world livePort resp,
      FindsSettings docs (some livePort) text := by
  intro text htext
  rw [loginResponses, if_neg Bool.false_ne_true, gatherInitInfo_render h] at htext
  simp only [List.mem_cons, List.mem_append, Option.mem_toList, Option.map_eq_some_iff,
    List.not_mem_nil, or_false] at htext
  rcases htext with rfl | ⟨xml, ⟨nodes, hnodes, rfl⟩, rfl⟩ | rfl
  · have hid : TextId (loginResponse false resp) 50001 := textId_cgiResponse _ _
    exact ⟨fun hother => absurd (hid.unique hother) (by decide),
      fun hother => absurd (hid.unique hother) (by decide)⟩
  · have hid : TextId (flatResponse 50008 (ProductInfo.fields ⟨Xml.render nodes⟩)) 50008 :=
      textId_productInfo _ _
    refine ⟨fun _ => ⟨nodes, hnodes, ?_⟩, fun hother => absurd (hid.unique hother) (by decide)⟩
    exact (finds_productInfo _).mono (List.subset_cons_self _ _)
  · have hinit := finds_initInfo (documentInfo docs livePort)
    refine ⟨fun hother => ?_, fun _ => ⟨livePort, rfl, hinit.mono (List.subset_cons_self _ _)⟩⟩
    obtain ⟨entries, hread, hall⟩ := hinit
    have hid : TextId (flatResponse 50009 (documentInfo docs livePort).fields) 50009 :=
      ⟨entries, hread, hall _ List.mem_cons_self⟩
    exact absurd (hid.unique hother) (by decide)

/-- **What the browser is told of the settings** behind a login, if the camera serves documents: the
product info is the document of the camera, and the init info has the numbers that are in the
documents, with the live port of the session. -/
theorem settings_told {docs : Query → Option (List Xml)} (h : camera.Serves docs)
    (hmsg : msg.msgId = wsRequestLogin) :
    ∀ text ∈ (s.processMessage origin msg (camera.world lookupHost probe)).2.2,
      FindsSettings docs
        (s.processMessage origin msg (camera.world lookupHost probe)).1.session.livePort text := by
  intro text htext
  have hkind : loginKind msg.msgId = some false := by rw [hmsg]; rfl
  have hlogout : msg.msgId ≠ wsRequestLogout := by rw [hmsg]; decide
  have hresponses : text ∈ (dispatchMessage origin s.toState msg
      (camera.world lookupHost probe)).1.responses := htext
  rw [livePort_processMessage hlogout]
  rw [dispatchMessage_login hkind] at hresponses ⊢
  have houtcome := dispatchLogin_outcome false origin s.toState msg.cmdObject
    (camera.world lookupHost probe).toWorld
  generalize (dispatchLogin false origin s.toState msg.cmdObject
    (camera.world lookupHost probe).toWorld).1 = action at houtcome hresponses ⊢
  cases houtcome with
  | error => cases hresponses
  | failed reason =>
    obtain rfl := List.mem_singleton.mp hresponses
    have hid : TextId (loginResponse false ⟨-1, failureXml reason⟩) 50001 := textId_cgiResponse _ _
    exact ⟨fun hother => absurd (hid.unique hother) (by decide),
      fun hother => absurd (hid.unique hother) (by decide)⟩
  | armed cam auth resp hensure =>
    rw [livePort_ensured hensure]
    exact findsSettings_loginResponses h.answersWith _ resp text hresponses

/-- The page of the camera is told the volume. -/
theorem settings_told_volume :
    ∃ text ∈ ((Session.new (.new 11000 1) 0).processMessage Session.cameraPage
        Session.loginMessage (sampleCamera.world none fun _ _ => true)).2.2,
      Finds text [("volume".toList, .nat 77)] := by
  have hdelivers : RawResponse.Delivers
      ⟨200, "200 OK".toList, none, [.ok (encodeUtf8 (Xml.render sampleVolume))]⟩
      (encodeUtf8 (Xml.render sampleVolume)) := by
    refine ⟨?_, ⟨[encodeUtf8 (Xml.render sampleVolume)], rfl, List.append_nil _⟩, by decide +kernel⟩
    rintro len ⟨⟩
  have hserves : sampleCamera.Serves fun q =>
      if q = .getAudioSetting then some sampleVolume else none := by
    intro q
    by_cases hq : q = .getAudioSetting
    · refine .inr ⟨sampleVolume, _, if_pos hq, if_pos hq, hdelivers, by decide⟩
    · refine .inl ⟨if_neg hq, [], ?_⟩
      simp only [sampleCamera, if_neg hq]
      rfl
  have hresponses : ((Session.new (.new 11000 1) 0).processMessage Session.cameraPage
      Session.loginMessage (sampleCamera.world none fun _ _ => true)).2.2 =
        loginResponses false (sampleCamera.world none fun _ _ => true).toWorld 11000 ⟨0, []⟩ := by
    decide +kernel
  have hinit : flatResponse 50009 (Cgi.gatherInitInfo
      (sampleCamera.world none fun _ _ => true).query 11000).2.fields ∈
        loginResponses false (sampleCamera.world none fun _ _ => true).toWorld 11000 ⟨0, []⟩ := by
    apply List.mem_cons_of_mem
    exact List.mem_append_right _ (List.mem_singleton_self _)
  rw [← hresponses] at hinit
  obtain ⟨entries, hread, hid, -⟩ :=
    read_initInfo (Cgi.gatherInitInfo (sampleCamera.world none fun _ _ => true).query 11000).2
  obtain ⟨port, -, hfinds⟩ := (settings_told hserves rfl _ hinit).2 ⟨entries, hread, hid⟩
  refine ⟨_, hinit, hfinds.mono ?_⟩
  have hvolume : documentSetting "volume".toList 100 sampleVolume = 77 := by decide +kernel
  have hmem : ("volume".toList, Json.nat
      (documentSetting "volume".toList 100 sampleVolume).toNat) ∈ (documentInfo (fun q =>
        if q = .getAudioSetting then some sampleVolume else none) port).fields :=
    List.mem_of_getElem? (i := 6) rfl
  rw [hvolume] at hmem
  exact List.cons_subset.mpr ⟨hmem, List.nil_subset _⟩

end Dispatch

end Fosipcore
