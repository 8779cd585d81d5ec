import Fosipcore.Protocol.Messages

/-!
# The CGI proxy

Requests to the camera, and what is made of its responses. A response without success, redirects
included, is a CGI result with the code `-1`.

## Main definitions

* `cgiResult`: the CGI result of an HTTP response
* `Query`, `gatherInitInfo`: the queries after a login, and the init info that they make up

## Main results

* `cgiResult_result`: the camera accepts a request if and only if it answers with success
-/

namespace Fosipcore

namespace Cgi

open Text

/-- An HTTP response: its status, as a number and as a text, and its body. -/
structure HttpResponse where
  status : ℕ
  statusText : Str
  body : Str

/-- `StatusCode::is_success` -/
def HttpResponse.isSuccess (resp : HttpResponse) : Bool := 200 ≤ resp.status ∧ resp.status < 300

/-- The text of a failure. -/
def failureXml (reason : Str) : Str :=
  "<CGI_Result><code>-1</code><error>".toList ++ reason ++ "</error></CGI_Result>".toList

/-- Turn a camera HTTP response into a CGI result. -/
def cgiResult (resp : HttpResponse) : CgiResponse :=
  if resp.isSuccess then ⟨0, resp.body⟩ else ⟨-1, failureXml ("HTTP ".toList ++ resp.statusText)⟩

/-- **The camera accepts** with a 2xx status, and with no other. -/
theorem cgiResult_result (resp : HttpResponse) :
    (cgiResult resp).result = 0 ↔ resp.isSuccess = true := by
  unfold cgiResult
  split_ifs with hsuccess
  · simp [hsuccess]
  · simp [hsuccess]

/-! ## Init info -/

/-- The commands that are asked for after a login. -/
inductive Query where
  | getProductAllInfo
  | getVideoStreamParam
  | getImageSetting
  | getAudioSetting
  | getInfraLedConfig
  deriving DecidableEq

/-- Simple XML value extractor: the number between the first tags. -/
def extractXmlValue (xml tag : Str) : Option UInt32 := do
  -- the closing tag is looked for behind the opening one
  let (_, rest) ← splitOnce ('<' :: tag ++ ['>']) xml
  let (value, _) ← splitOnce ("</".toList ++ tag ++ ['>']) rest
  (parseUnsigned 4294967295 (trim value)).map UInt32.ofNat

/-- The stream parameters when CGI is unavailable. -/
def defaultStreamParam : List UInt32 :=
  [9, 2097152, 15, 30, 1,
    7, 1048576, 15, 30, 1,
    0, 524288, 15, 30, 1,
    7, 4194304, 25, 30, 1]

/-- Parse the five parameters of each of the four streams. -/
def parseStreamParam : Option CgiResponse → List UInt32
  | none => defaultStreamParam
  | some resp => (List.range 4).flatMap fun i =>
    -- the tags of a stream end with its number
    let value tag := extractXmlValue resp.response (tag ++ numeral i)
    [(value "resolution".toList).getD 9, (value "bitRate".toList).getD 2097152,
      (value "frameRate".toList).getD 15, (value "GOP".toList).getD 30,
      (value "isVBR".toList).getD 1]

/-- Parse one setting, with its default for a camera that does not answer, and for one that does. -/
def parseSetting (tag : Str) (unanswered absent : UInt32) : Option CgiResponse → UInt32
  | none => unanswered
  | some resp => (extractXmlValue resp.response tag).getD absent

/-- Gather post-login data from the camera: the product info, and the init info with the live port
of the session. -/
def gatherInitInfo (query : Query → Option HttpResponse) (httpFlvPort : UInt16) :
    Option Str × InitInfo :=
  let answer q := (query q).map cgiResult
  let image tag default := parseSetting tag default default (answer .getImageSetting)
  ((answer .getProductAllInfo).map CgiResponse.response,
    { livePort := httpFlvPort
      volume := parseSetting "volume".toList 100 100 (answer .getAudioSetting)
      streamParam := parseStreamParam (answer .getVideoStreamParam)
      brightness := image "brightness".toList 50
      contrast := image "contrast".toList 47
      hue := image "hue".toList 55
      saturation := image "saturation".toList 20
      sharpness := image "sharpness".toList 30
      infraLedMode := parseSetting "mode".toList 0 0 (answer .getInfraLedConfig)
      usrPrivilege := 2 })

end Cgi

end Fosipcore
