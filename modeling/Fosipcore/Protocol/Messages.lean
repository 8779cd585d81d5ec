import Fosipcore.Core.Connection
import Fosipcore.Library.Json

/-!
# The messages of a login

A login message carries a command in its `cmdObject`, and is answered by up to three messages: the
login response, the product info and the init info. A response is flat: its fields stand beside those
of the envelope.

## Main definitions

* `LoginCmd.fromValue`: the login command of a `cmdObject`
* `CgiResponse`, `ProductInfo`, `InitInfo`: what the responses carry
* `withResponse`: the JSON of a response
-/

namespace Fosipcore

open Text

/-! ## The login command -/

namespace LoginCmd

/-- The command of the fields of a `cmdObject`, which are known by index and name. The fields that
are not used have to have the right type as well. -/
def fromFields (field : ℕ → Str → Option Json) : Option LoginCmd := do
  let string i name := Json.optional Json.asString (field i name)
  let u16 i name := Json.optional (Json.asUnsigned 65535) (field i name)
  let u32 i name := Json.optional (Json.asUnsigned 4294967295) (field i name)
  let ip ← string 0 "ip".toList
  let _ddns ← string 1 "ddns".toList
  let _uid ← string 2 "uid".toList
  -- these two have no default
  let usr ← (field 3 "usr".toList).bind Json.asString
  let pwd ← (field 4 "pwd".toList).bind Json.asString
  let webPort ← u16 5 "webPort".toList
  let mediaPort ← u16 6 "mediaPort".toList
  let _ddnsMedia ← u16 7 "ddnsMedia".toList
  let _mac ← string 8 "mac".toList
  let _ipcType ← u32 9 "ipcType".toList
  let _connectType ← u32 10 "connectType".toList
  let _streamType ← u32 11 "streamType".toList
  let _timeout ← u32 12 "timeout".toList
  let _serviceType ← u32 13 "serviceType".toList
  return ⟨ip, usr, pwd, webPort.map UInt16.ofNat, mediaPort.map UInt16.ofNat⟩

/-- Deserialize a `cmdObject`. An array gives the fields in their order; all up to the last one
without a default have to be there, and nothing else may follow. -/
def fromValue : Json → Option LoginCmd
  | .object entries => fromFields fun _ name => Json.lookup name entries
  | .array items =>
    if 5 ≤ items.length ∧ items.length ≤ 14 then fromFields fun i _ => items[i]? else none
  | _ => none

end LoginCmd

/-! ## The responses -/

/-- CGI proxy response. -/
structure CgiResponse where
  /-- 0 = success, non-zero = error. -/
  result : ℤ
  /-- XML response body from the camera. -/
  response : Str
  deriving DecidableEq

def CgiResponse.fields (r : CgiResponse) : List (Str × Json) :=
  [("result".toList, .number (.int r.result)), ("response".toList, .string r.response)]

/-- Product info response: the XML of the camera. -/
structure ProductInfo where
  response : Str

def ProductInfo.fields (r : ProductInfo) : List (Str × Json) :=
  [("response".toList, .string r.response)]

/-- Init info response. -/
structure InitInfo where
  result : ℤ := 0
  rtmpPort : UInt16 := 0
  livePort : UInt16 := 0
  recordState : UInt32 := 0
  flashEnableBuffer : UInt32 := 0
  isMute : UInt32 := 0
  volume : UInt32 := 0
  ledState : UInt32 := 0
  presetPointCnt : UInt32 := 0
  cruiseMapCnt : UInt32 := 0
  cruCruiseMap : UInt32 := 0
  mainStreamType : UInt32 := 0
  subStreamType : UInt32 := 0
  /-- Four streams with five values each. -/
  streamParam : List UInt32 := []
  brightness : UInt32 := 0
  contrast : UInt32 := 0
  hue : UInt32 := 0
  saturation : UInt32 := 0
  sharpness : UInt32 := 0
  isMirror : UInt32 := 0
  isFlip : UInt32 := 0
  isAlarming : UInt32 := 0
  alarmType : UInt32 := 0
  pwrFreq : UInt32 := 0
  infraLedMode : UInt32 := 0
  infraLedState : UInt32 := 0
  usrPrivilege : UInt32 := 0

def InitInfo.fields (r : InitInfo) : List (Str × Json) :=
  [("result".toList, .number (.int r.result)),
    ("rtmpPort".toList, .nat r.rtmpPort.toNat),
    ("livePort".toList, .nat r.livePort.toNat),
    ("recordState".toList, .nat r.recordState.toNat),
    ("flashEnableBuffer".toList, .nat r.flashEnableBuffer.toNat),
    ("isMute".toList, .nat r.isMute.toNat),
    ("volume".toList, .nat r.volume.toNat),
    ("ledState".toList, .nat r.ledState.toNat),
    ("presetPointCnt".toList, .nat r.presetPointCnt.toNat),
    ("cruiseMapCnt".toList, .nat r.cruiseMapCnt.toNat),
    ("cruCruiseMap".toList, .nat r.cruCruiseMap.toNat),
    ("mainStreamType".toList, .nat r.mainStreamType.toNat),
    ("subStreamType".toList, .nat r.subStreamType.toNat),
    ("streamParam".toList, .array (r.streamParam.map fun n => .nat n.toNat)),
    ("brightness".toList, .nat r.brightness.toNat),
    ("contrast".toList, .nat r.contrast.toNat),
    ("hue".toList, .nat r.hue.toNat),
    ("saturation".toList, .nat r.saturation.toNat),
    ("sharpness".toList, .nat r.sharpness.toNat),
    ("isMirror".toList, .nat r.isMirror.toNat),
    ("isFlip".toList, .nat r.isFlip.toNat),
    ("isAlarming".toList, .nat r.isAlarming.toNat),
    ("alarmType".toList, .nat r.alarmType.toNat),
    ("pwrFreq".toList, .nat r.pwrFreq.toNat),
    ("infraLedMode".toList, .nat r.infraLedMode.toNat),
    ("infraLedState".toList, .nat r.infraLedState.toNat),
    ("usrPrivilege".toList, .nat r.usrPrivilege.toNat)]

/-- Build a flat response: the fields of the command stand beside those of the envelope. -/
def withResponse (msgId : ℕ) (cmd : List (Str × Json)) : Json :=
  let map := Json.insertAll [("version".toList, .nat 1), ("msgid".toList, .nat msgId),
    ("groupId".toList, .nat 0), ("sequence".toList, .nat 0), ("dataLen".toList, .nat 0)] []
  -- a field of the command takes the place of one of the envelope
  .object (Json.insertAll (Json.insertAll cmd []) map)

end Fosipcore
