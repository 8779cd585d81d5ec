import Fosipcore.Core.Dispatch
import Fosipcore.Library.JsonReader

/-!
# The envelopes of the responses

The browser reads the text of a response, and looks for a result beside the fields of the envelope.
There are two builders: one puts the fields of a response there, the other nests them in a
`cmdObject`. All handlers use the first one for their results. The errors of a CGI request and of a
snapshot are built with the other one, so that the browser finds no result in them.

## Main definitions

* `resultFields`: what a response carries as its result, by its id
* `SharesEnvelope`: the text of a response whose result is beside its id
* `CgiAnswered`: the CGI requests that come to an answer of the camera

## Main results

* `sharesEnvelope_flatResponse`, `not_sharesEnvelope_errorResponse`: the two envelopes
* `sharesEnvelope_iff`: the messages whose responses all share the envelope
-/

namespace Fosipcore

namespace Dispatch

open Text Json Login MsgId
open Cgi (cgiResult failureXml)

/-! ## What the browser reads -/

/-- The names of results. -/
def resultKeys : List Str := ["result".toList, "response".toList, "img".toList]

/-- What a response carries as its result: that of a login, a CGI request or a talk, of a snapshot,
the product info, and the init info. -/
def resultFields (msgId : ℕ) : List Str :=
  if msgId ∈ [50001, 50026, 50005, 50006] then ["result".toList, "response".toList]
  else if msgId = 50007 then ["result".toList, "img".toList]
  else if msgId = 50008 then ["response".toList]
  else if msgId = 50009 then ["result".toList]
  else []

/-- The fields of the `cmdObject` of a response. -/
def nestedKeys (entries : List (Str × Json)) : List Str :=
  match lookup "cmdObject".toList entries with
  | some (.object cmd) => keys cmd
  | _ => []

/-- **The envelope of a response**: the id is at the top level, and so is whatever the response
carries as its result, or has in a `cmdObject`; nothing of it is nested. -/
def SharesEnvelope (text : Str) : Prop :=
  ∃ entries msgId, read text = some (.object entries) ∧
    lookup "msgid".toList entries = some (.nat msgId) ∧
    ∀ key ∈ resultKeys, key ∈ resultFields msgId ∨ key ∈ nestedKeys entries →
      key ∈ keys entries ∧ key ∉ nestedKeys entries

/-! ## The two builders -/

theorem integral_insertAll {fields entries : List (Str × Json)}
    (hfields : ∀ field ∈ fields, integral field.2 = true)
    (hentries : ∀ entry ∈ entries, integral entry.2 = true) :
    integral (.object (insertAll fields entries)) = true := by
  rw [integral, integralEntries_iff]
  intro entry hentry
  rcases mem_insertAll hentry with hentry | hentry
  · exact hfields entry hentry
  · exact hentries entry hentry

/-- **A flat response** shares the envelope, if it has all the fields of its result. -/
theorem sharesEnvelope_flatResponse {msgId : ℕ} {cmd : List (Str × Json)}
    (hintegral : ∀ field ∈ cmd, integral field.2 = true) (hid : "msgid".toList ∉ keys cmd)
    (hcmd : "cmdObject".toList ∉ keys cmd) (hfields : resultFields msgId ⊆ keys cmd) :
    SharesEnvelope (flatResponse msgId cmd) := by
  have hsorted : ∀ {key : Str}, key ∈ keys (insertAll cmd []) ↔ key ∈ keys cmd := by
    intro key
    rw [mem_keys_insertAll]
    exact or_iff_left List.not_mem_nil
  have hread : integral (withResponse msgId cmd) = true := by
    apply integral_insertAll
    · intro field hfield
      rcases mem_insertAll hfield with hfield | hfield
      · exact hintegral field hfield
      · cases hfield
    · intro entry hentry
      rcases mem_insertAll hentry with hentry | hentry
      · simp only [List.mem_cons, List.not_mem_nil, or_false] at hentry
        rcases hentry with rfl | rfl | rfl | rfl | rfl <;> rfl
      · cases hentry
  refine ⟨_, msgId, read_print hread, ?_, ?_⟩
  · rw [lookup_insertAll_of_notMem (mt hsorted.mp hid)]
    rfl
  · have hnested : nestedKeys (insertAll (insertAll cmd []) (insertAll
        [("version".toList, .nat 1), ("msgid".toList, .nat msgId), ("groupId".toList, .nat 0),
          ("sequence".toList, .nat 0), ("dataLen".toList, .nat 0)] [])) = [] := by
      rw [nestedKeys, lookup_insertAll_of_notMem (mt hsorted.mp hcmd)]
      rfl
    intro key _ hkey
    rw [hnested] at hkey ⊢
    refine ⟨mem_keys_insertAll.mpr (.inl (hsorted.mpr ?_)), List.not_mem_nil⟩
    exact hfields (hkey.resolve_right List.not_mem_nil)

/-- The entries of a message. -/
def messageEntries (msg : WsMessage) : List (Str × Json) :=
  [("version".toList, .nat msg.version), ("msgid".toList, .nat msg.msgId),
    ("groupId".toList, .nat msg.groupId), ("sequence".toList, .nat msg.sequence),
    ("dataLen".toList, .nat msg.dataLen)] ++
    (msg.cmdObject.map fun cmd => ("cmdObject".toList, cmd)).toList

theorem read_message {msg : WsMessage} (h : ∀ cmd ∈ msg.cmdObject, integral cmd = true) :
    read msg.print = some (.object (messageEntries msg)) := by
  have hintegral : integral msg.toJson = true := by
    obtain ⟨version, msgId, groupId, sequence, dataLen, cmdObject⟩ := msg
    cases cmdObject with
    | none => rfl
    | some cmd =>
      have hcmd : integral cmd = true := h cmd rfl
      simp [WsMessage.toJson, integral, integralEntries, Json.nat, hcmd]
  exact read_print hintegral

/-- **A message** shares the envelope, if it has no result. -/
theorem sharesEnvelope_print {msg : WsMessage} (h : ∀ cmd ∈ msg.cmdObject, integral cmd = true)
    (hid : resultFields msg.msgId = [])
    (hnested : ∀ key ∈ resultKeys, key ∉ nestedKeys (messageEntries msg)) :
    SharesEnvelope msg.print := by
  refine ⟨_, msg.msgId, read_message h, rfl, fun key hkey hcarried => ?_⟩
  rw [hid] at hcarried
  exact absurd (hcarried.resolve_left List.not_mem_nil) (hnested key hkey)

theorem sharesEnvelope_new {msgId : ℕ} (hid : resultFields msgId = []) :
    SharesEnvelope (WsMessage.new msgId).print :=
  sharesEnvelope_print nofun hid fun _ _ => List.not_mem_nil

/-- **An error response** has no result at the top level. -/
theorem not_sharesEnvelope_errorResponse {msgId : ℕ} (h : "result".toList ∈ resultFields msgId)
    (e : Str) : ¬ SharesEnvelope (errorResponse msgId e) := by
  rintro ⟨entries, id, hread, hid, hall⟩
  have hnone : ∀ field ∈ ([] : List (Str × Json)), integral field.2 = true := nofun
  have hfields : ∀ field ∈ CgiResponse.fields ⟨-1, failureXml e⟩, integral field.2 = true := by
    simp [CgiResponse.fields, integral]
  rw [errorResponse, read_message] at hread
  · obtain rfl := Json.object.inj (Option.some.inj hread)
    obtain rfl : msgId = id := by
      have hnat : Json.nat msgId = .nat id := Option.some.inj hid
      exact Int.ofNat.inj (JsonNumber.int.inj (Json.number.inj hnat))
    have htop := (hall "result".toList List.mem_cons_self (.inl h)).1
    -- the keys of the message do not depend on its values
    have hkeys : keys (messageEntries (WsMessage.withCmd msgId
        (CgiResponse.fields ⟨-1, failureXml e⟩))) = ["version".toList, "msgid".toList,
          "groupId".toList, "sequence".toList, "dataLen".toList, "cmdObject".toList] := rfl
    rw [hkeys] at htop
    revert htop
    decide
  · rintro cmd ⟨⟩
    exact integral_insertAll hfields hnone

/-! ## The handlers -/

/-- A response with a result only has no field in the place of one of the envelope. -/
theorem sharesEnvelope_result {msgId : ℕ} {cmd : List (Str × Json)}
    (hintegral : ∀ field ∈ cmd, integral field.2 = true) (hkeys : keys cmd ⊆ resultKeys)
    (hfields : resultFields msgId ⊆ keys cmd) : SharesEnvelope (flatResponse msgId cmd) := by
  have hreserved : "msgid".toList ∉ resultKeys ∧ "cmdObject".toList ∉ resultKeys := by decide
  apply sharesEnvelope_flatResponse hintegral
  · exact mt (@hkeys _) hreserved.1
  · exact mt (@hkeys _) hreserved.2
  · exact hfields

theorem sharesEnvelope_cgiResponse {msgId : ℕ}
    (h : resultFields msgId ⊆ ["result".toList, "response".toList]) (resp : CgiResponse) :
    SharesEnvelope (flatResponse msgId resp.fields) := by
  apply sharesEnvelope_result
  · simp [CgiResponse.fields, integral]
  · exact List.subset_append_left ["result".toList, "response".toList] _
  · exact h

theorem sharesEnvelope_snapResponse (resp : SnapResponse) :
    SharesEnvelope (flatResponse responseRequestSnap resp.fields) := by
  apply sharesEnvelope_result
  · simp [SnapResponse.fields, integral]
  · change ["result".toList, "img".toList] ⊆ resultKeys
    decide
  · exact List.Subset.refl _

theorem sharesEnvelope_productInfo (info : ProductInfo) :
    SharesEnvelope (flatResponse 50008 info.fields) := by
  apply sharesEnvelope_result
  · simp [ProductInfo.fields, integral]
  · change ["response".toList] ⊆ resultKeys
    decide
  · exact List.Subset.refl _

theorem integralItems_nat (l : List UInt32) :
    integralItems (l.map fun n => .nat n.toNat) = true := by
  induction l with
  | nil => rfl
  | cons n l ih => exact ih

theorem sharesEnvelope_initInfo (info : InitInfo) :
    SharesEnvelope (flatResponse 50009 info.fields) := by
  have hkeys : keys info.fields = keys (InitInfo.fields {}) := rfl
  apply sharesEnvelope_flatResponse
  · simpa [InitInfo.fields, integral, Json.nat] using integralItems_nat info.streamParam
  · rw [hkeys]
    decide
  · rw [hkeys]
    decide
  · rw [hkeys]
    decide

variable {isRelogin : Bool} {origin : Option OriginInfo} {state : State} {msg : WsMessage}
  {world : World}

theorem sharesEnvelope_loginResponse (isRelogin : Bool) (resp : CgiResponse) :
    SharesEnvelope (loginResponse isRelogin resp) := by
  cases isRelogin with
  | true => exact sharesEnvelope_cgiResponse (List.Subset.refl _) resp
  | false => exact sharesEnvelope_cgiResponse (List.Subset.refl _) resp

/-- **The responses of a login** share the envelope, whatever comes of it. -/
theorem LoginOutcome.sharesEnvelope {w : Login.World} {action : Action}
    (h : LoginOutcome isRelogin state w action) :
    ∀ text ∈ action.responses, SharesEnvelope text := by
  intro text htext
  cases h with
  | error => cases htext
  | failed reason =>
    rw [List.mem_singleton.mp htext]
    exact sharesEnvelope_loginResponse _ _
  | armed camera auth resp hensure =>
    simp only [loginResponses, List.mem_cons, List.mem_append, Option.mem_toList,
      Option.map_eq_some_iff, List.not_mem_nil, or_false] at htext
    rcases htext with rfl | ⟨xml, -, rfl⟩ | rfl
    · exact sharesEnvelope_loginResponse _ _
    · exact sharesEnvelope_productInfo ⟨xml⟩
    · exact sharesEnvelope_initInfo _

theorem sharesEnvelope_handleOpenVideo {session : SessionState} {text : Str}
    (h : handleOpenVideo session = some text) : SharesEnvelope text := by
  unfold handleOpenVideo at h
  split at h
  · obtain rfl := Option.some.inj h
    apply sharesEnvelope_flatResponse
    · simp [VideoOpenSuccess.fields, integral, Json.nat]
    · simp [VideoOpenSuccess.fields, keys]
    · simp [VideoOpenSuccess.fields, keys]
    · exact List.nil_subset _
  · cases h

/-- A CGI request that comes to an answer of the camera: there is a command, the session has
credentials and a camera, and the camera answers. -/
def CgiAnswered (session : SessionState) (cmdObject : Option Json) (world : World) : Prop :=
  ∃ cmd user pwd camera resp, cmdObject.bind CgiCmd.fromValue = some cmd ∧
    session.user = some user ∧ session.pwd = some pwd ∧ session.camera = some camera ∧
    world.get (cgiUrl camera user pwd cmd) = .ok resp

/-- A session with credentials and a camera. -/
def Authenticated (session : SessionState) : Prop :=
  session.user.isSome ∧ session.pwd.isSome ∧ session.camera.isSome

theorem authenticated_cases (session : SessionState) :
    (∃ user pwd camera, session.user = some user ∧ session.pwd = some pwd ∧
      session.camera = some camera ∧ authenticated session = .ok (user, pwd, camera)) ∨
    (¬ Authenticated session ∧ ∃ e, authenticated session = .error e) := by
  obtain ⟨camera, user, pwd, video, livePort⟩ := session
  cases user with
  | none => exact .inr ⟨fun h => (nomatch h.1), _, rfl⟩
  | some user =>
    cases pwd with
    | none => exact .inr ⟨fun h => (nomatch h.2.1), _, rfl⟩
    | some pwd =>
      cases camera with
      | none => exact .inr ⟨fun h => (nomatch h.2.2), _, rfl⟩
      | some camera => exact .inl ⟨user, pwd, camera, rfl, rfl, rfl, rfl⟩

theorem result_mem_resultFields :
    "result".toList ∈ resultFields responseRequestCgi ∧
      "result".toList ∈ resultFields responseRequestSnap :=
  ⟨List.mem_cons_self, List.mem_cons_self⟩

/-- **A CGI request** has a result that the browser finds if and only if the camera has answered. -/
theorem sharesEnvelope_handleCgi (session : SessionState) (cmdObject : Option Json)
    (world : World) :
    SharesEnvelope (okOrError responseRequestCgi (handleCgi session cmdObject world)) ↔
      CgiAnswered session cmdObject world := by
  have herror : ∀ e, ¬ SharesEnvelope (okOrError responseRequestCgi (.error e)) :=
    not_sharesEnvelope_errorResponse result_mem_resultFields.1
  rw [handleCgi]
  cases hcmd : cmdObject.bind CgiCmd.fromValue with
  | none =>
    refine iff_of_false (herror _) ?_
    rintro ⟨cmd, user, pwd, camera, resp, hsome, -⟩
    rw [hcmd] at hsome
    cases hsome
  | some cmd =>
    rcases authenticated_cases session with
      ⟨user, pwd, camera, huser, hpwd, hcamera, hok⟩ | ⟨hnot, e, he⟩
    · rw [hok]
      cases hget : world.get (cgiUrl camera user pwd cmd) with
      | ok resp =>
        refine iff_of_true ?_ ⟨cmd, user, pwd, camera, resp, hcmd, huser, hpwd, hcamera, hget⟩
        simp only [bind, Except.bind, hget]
        exact sharesEnvelope_cgiResponse (List.Subset.refl _) _
      | error e =>
        simp only [bind, Except.bind, hget]
        refine iff_of_false (herror e) ?_
        rintro ⟨cmd', user', pwd', camera', resp, hcmd', huser', hpwd', hcamera', hget'⟩
        obtain rfl := Option.some.inj (hcmd.symm.trans hcmd')
        obtain rfl := Option.some.inj (huser.symm.trans huser')
        obtain rfl := Option.some.inj (hpwd.symm.trans hpwd')
        obtain rfl := Option.some.inj (hcamera.symm.trans hcamera')
        cases hget.symm.trans hget'
    · rw [he]
      refine iff_of_false (herror e) ?_
      rintro ⟨cmd', user, pwd, camera, resp, -, huser, hpwd, hcamera, -⟩
      exact hnot ⟨Option.isSome_of_eq_some huser, Option.isSome_of_eq_some hpwd,
        Option.isSome_of_eq_some hcamera⟩

/-- **A snapshot** has a result that the browser finds if and only if the session has credentials and
a camera: a camera that does not answer makes a result. -/
theorem sharesEnvelope_handleSnapshot (session : SessionState) (world : World) :
    SharesEnvelope (okOrError responseRequestSnap (handleSnapshot session world)) ↔
      Authenticated session := by
  rw [handleSnapshot]
  rcases authenticated_cases session with
    ⟨user, pwd, camera, huser, hpwd, hcamera, hok⟩ | ⟨hnot, e, he⟩
  · rw [hok]
    refine iff_of_true (sharesEnvelope_snapResponse _) ?_
    exact ⟨Option.isSome_of_eq_some huser, Option.isSome_of_eq_some hpwd,
      Option.isSome_of_eq_some hcamera⟩
  · rw [he]
    exact iff_of_false (not_sharesEnvelope_errorResponse result_mem_resultFields.2 e) hnot

/-! ## All messages -/

/-- No other message has a response without the envelope. -/
theorem sharesEnvelope_other (origin : Option OriginInfo) (state : State) {msg : WsMessage}
    (world : World) (hcgi : msg.msgId ≠ wsRequestCgi) (hsnap : msg.msgId ≠ wsRequestSnap) :
    ∀ text ∈ (dispatchMessage origin state msg world).1.responses, SharesEnvelope text := by
  unfold dispatchMessage
  split
  -- the two logins, and the logout
  · exact (dispatchLogin_outcome ..).sharesEnvelope
  · exact (dispatchLogin_outcome ..).sharesEnvelope
  · exact List.forall_mem_singleton.mpr (sharesEnvelope_new rfl)
  -- a CGI request, and a snapshot
  · exact absurd ‹_› hcgi
  · exact absurd ‹_› hsnap
  -- the video requests
  · intro text htext
    exact sharesEnvelope_handleOpenVideo (Option.mem_toList.mp htext)
  · intro text htext
    obtain ⟨video, -, rfl⟩ := Option.map_eq_some_iff.mp (Option.mem_toList.mp htext)
    exact sharesEnvelope_new rfl
  -- audio, talk and record
  · exact List.forall_mem_singleton.mpr (sharesEnvelope_new rfl)
  · exact List.forall_mem_singleton.mpr (sharesEnvelope_cgiResponse (List.Subset.refl _) _)
  · exact List.forall_mem_singleton.mpr (sharesEnvelope_new rfl)
  -- the upgrade prompt has a `cmdObject`, but no result
  · refine List.forall_mem_singleton.mpr (sharesEnvelope_print ?_ rfl ?_)
    · rintro cmd ⟨⟩
      rfl
    · change ∀ key ∈ resultKeys, key ∉ ["enable".toList]
      decide
  · exact List.forall_mem_nil _
  · exact List.forall_mem_nil _
  · exact List.forall_mem_nil _

/-- **All responses to a message share the envelope** if and only if it is no CGI request without an
answer of the camera, and no snapshot request of a session without credentials or camera. -/
theorem sharesEnvelope_iff (origin : Option OriginInfo) (state : State) (msg : WsMessage)
    (world : World) :
    (∀ text ∈ (dispatchMessage origin state msg world).1.responses, SharesEnvelope text) ↔
      (msg.msgId = wsRequestCgi → CgiAnswered state.session msg.cmdObject world) ∧
        (msg.msgId = wsRequestSnap → Authenticated state.session) := by
  by_cases hcgi : msg.msgId = wsRequestCgi
  · have hresponses : (dispatchMessage origin state msg world).1.responses =
        [okOrError responseRequestCgi (handleCgi state.session msg.cmdObject world)] := by
      simp only [dispatchMessage, hcgi]
    have hsnap : msg.msgId ≠ wsRequestSnap := by
      rw [hcgi]
      decide
    rw [hresponses, List.forall_mem_singleton, sharesEnvelope_handleCgi]
    exact ⟨fun h => ⟨fun _ => h, fun hid => absurd hid hsnap⟩, fun h => h.1 hcgi⟩
  · by_cases hsnap : msg.msgId = wsRequestSnap
    · have hresponses : (dispatchMessage origin state msg world).1.responses =
          [okOrError responseRequestSnap (handleSnapshot state.session world)] := by
        simp only [dispatchMessage, hsnap]
      rw [hresponses, List.forall_mem_singleton, sharesEnvelope_handleSnapshot]
      exact ⟨fun h => ⟨fun hid => absurd hid hcgi, fun _ => h⟩, fun h => h.2 hsnap⟩
    · refine iff_of_true (sharesEnvelope_other origin state world hcgi hsnap) ?_
      exact ⟨fun h => absurd h hcgi, fun h => absurd h hsnap⟩

/-- A CGI request, as the page sends it. -/
def cgiRequest : WsMessage :=
  { WsMessage.new wsRequestCgi with
    cmdObject := some (.object [("cgi".toList, .string "getDevInfo".toList)]) }

/-- A world in which nothing answers. -/
def noAnswer : World where
  lookupHost := none
  login := none
  query _ := none
  probe _ _ := false
  get _ := .error []
  snapshot _ := .error []

/-- A CGI request before a login has a result that is nested. -/
theorem cgiRequest_nested :
    ¬ ∀ (origin : Option OriginInfo) (state : State) (msg : WsMessage) (world : World),
      ∀ text ∈ (dispatchMessage origin state msg world).1.responses, SharesEnvelope text := by
  intro h
  have hshares := h none ⟨.new, none, .new 11000 1, 0⟩ cgiRequest noAnswer
    (errorResponse responseRequestCgi "not authenticated".toList) List.mem_cons_self
  exact not_sharesEnvelope_errorResponse result_mem_resultFields.1 _ hshares

end Dispatch

end Fosipcore
