import Fosipcore.Video.ChallengeParams

/-!
# Fresh requests

A camera may reject a request whose number is not the next one on its connection, and a Digest
authorization with a nonce of another connection. The client numbers its requests anew whenever it
reconnects, and a challenge is answered on the connection it came from, by the request whose method
and address the authorization was computed for.

The realm and the nonce of an authorization are those of the challenge if the first `realm=` and the
first `nonce=` that the client finds in it stand at the parameters of these names. Behind a `cnonce=`
they do not.

The number is a `u32`, as the counter of the client is.

## Main definitions

* `paramsIn`: the parameters of a challenge, read without the search of the client
* `Legible`: the client finds the realm and the nonce of a challenge, or does not answer it
* `Challenged`, `Answers`: challenges that were received, and requests that answer them
* `Fresh`: what a request should be, after the exchanges on its connection
* `Ready`: the invariant of the handshake

## Main results

* `digestAuthHeader_legible`: the realm and the nonce of an authorization
* `doSetupTrack_ready`, `digestDescribe_ready`, `setupAll_ready`: the steps keep the invariant
* `connect_fresh`: the requests on a connection with legible challenges are fresh
-/

namespace Fosipcore

namespace RtspClient

open Text Fallible

/-! ## The parameters of a challenge -/

/-- The value at the front of a text. It ends at a quotation mark, but not at one behind a backslash,
or else at a comma or a blank. -/
def frontValue (s : Str) : Option Str :=
  match s.dropWhile isWhitespace with
  | '\"' :: inner =>
    ((splitOnce ['\"'] inner).map Prod.fst).filter fun value => value.getLast? ≠ some '\\'
  | s =>
    let value := s.takeWhile (· ∉ [',', ' '])
    if value.any isWhitespace then none else some value

/-- The parameter at the front of a text, with its name in lower case. -/
def frontParam (s : Str) : Option (Str × Str) :=
  (splitOnce ['='] s).bind fun (name, rest) =>
    if name.all isTokenChar then (frontValue rest).map fun value => (asciiLower name, value)
    else none

/-- A parameter may begin behind this text: at a comma or a blank, outside of quotation marks. -/
def Opens (before : Str) : Prop :=
  before.count '\"' % 2 = 0 ∧ ∀ c ∈ before.getLast?, c = ' ' ∨ c = ','

instance (before : Str) : Decidable (Opens before) :=
  @instDecidableAnd _ _ inferInstance (Option.decidableForallMem _)

/-- **The parameters of a challenge**, with the byte at which each of them begins. -/
def paramsIn (challenge : Str) : List (ℕ × Str × Str) :=
  (List.range challenge.length).filterMap fun n =>
    if Opens (challenge.take n) then
      (frontParam (challenge.drop n)).map fun param => (byteLength (challenge.take n), param)
    else none

/-- A parameter of the challenge has this name and this value. -/
def HasParam (challenge name value : Str) : Prop :=
  ∃ offset, (offset, name, value) ∈ paramsIn challenge

section

variable (env : Environment) (challenge name : Str)

/-- The first `name=` of the lower case text has the position of a parameter of that name. -/
def FindsParam : Prop :=
  ∃ before after value,
    splitOnce (env.toLowercase (name ++ ['='])) (env.toLowercase challenge) =
      some (before, after) ∧ (byteLength before, name, value) ∈ paramsIn challenge

/-- If there is a `name=` in the lower case text at all, no value can be read at the position of the
first one: it lies inside a character, or behind it is a quotation mark that no other one closes. -/
def FindsNone : Prop :=
  ∀ before after rest,
    splitOnce (env.toLowercase (name ++ ['='])) (env.toLowercase challenge) =
      some (before, after) →
    dropBytes (byteLength before + byteLength (name ++ ['='])) challenge = some rest →
    ∃ inner, trim rest = '\"' :: inner ∧ '\"' ∉ inner

/-- **The client finds the realm and the nonce** of the challenge, or it finds one of them nowhere and
does not answer. -/
def Legible : Prop :=
  (FindsParam env challenge "realm".toList ∧ FindsParam env challenge "nonce".toList) ∨
    FindsNone env challenge "realm".toList ∨ FindsNone env challenge "nonce".toList

end

/-- A value in quotation marks is read up to the closing one. -/
theorem valueBehind_of_split {s inner before after : Str}
    (hquote : s.dropWhile isWhitespace = '\"' :: inner)
    (hsplit : splitOnce ['\"'] inner = some (before, after)) : valueBehind s = some before := by
  have hinner := splitOnce_eq hsplit
  rw [hinner] at hsplit hquote
  -- the closing quotation mark is no white space, so that it is not trimmed
  have hclosed : trim s = '\"' :: (before ++ '\"' :: after.rdropWhile isWhitespace) := by
    rw [← trim_cons_append before after (by decide) (by decide), ← trim_dropWhile s, hquote]
    rfl
  rw [valueBehind_quote hclosed]
  have hbehind := splitOnce_behind (by decide) hsplit (after.rdropWhile isWhitespace)
  exact congrArg (Option.map Prod.fst) hbehind

/-- A value without white space is read up to a comma or a blank. -/
theorem takeWhile_value {value rest : Str} (hvalue : ∀ c ∈ value, isWhitespace c = false)
    (hread : ∀ c ∈ value, c ∉ [',', ' ']) (hstop : ∀ c ∈ rest.head?, c ∈ [',', ' ']) :
    (value ++ rest).takeWhile (· ∉ [',', ' ', '\r', '\n']) = value := by
  rw [List.takeWhile_append_of_pos]
  · cases rest with
    | nil => rw [List.takeWhile_nil, List.append_nil]
    | cons c tail =>
      have hc := hstop c rfl
      rw [List.takeWhile_cons_of_neg (by grind), List.append_nil]
  · intro c hc
    have hends : isWhitespace '\r' = true ∧ isWhitespace '\n' = true := by decide
    have hnone := hvalue c hc
    have hnot := hread c hc
    grind

/-- A value that is not quoted ends at a comma or a blank. -/
theorem valueBehind_plain {s : Str}
    (hplain : ∀ inner, s.dropWhile isWhitespace = '\"' :: inner → False)
    (hspace : ¬ ((s.dropWhile isWhitespace).takeWhile (· ∉ [',', ' '])).any isWhitespace = true) :
    valueBehind s = some ((s.dropWhile isWhitespace).takeWhile (· ∉ [',', ' '])) := by
  have htrim : trim s = (s.dropWhile isWhitespace).rdropWhile isWhitespace := rfl
  generalize s.dropWhile isWhitespace = front at *
  have hparts := List.takeWhile_append_dropWhile (p := (· ∉ [',', ' '])) (l := front)
  have hread : ∀ c ∈ front.takeWhile (· ∉ [',', ' ']), c ∉ [',', ' '] := fun c hc => by
    simpa using List.mem_takeWhile_imp hc
  have hstop : ∀ c ∈ (front.dropWhile (· ∉ [',', ' '])).head?, c ∈ [',', ' '] := by
    intro c hc
    have hnot := List.head?_dropWhile_not (· ∉ [',', ' ']) front
    rw [hc] at hnot
    exact not_not.mp (of_decide_eq_false hnot)
  generalize front.takeWhile (· ∉ [',', ' ']) = value at *
  generalize front.dropWhile (· ∉ [',', ' ']) = rest at *
  have hvalue : ∀ c ∈ value, isWhitespace c = false := by
    simpa using hspace
  -- what stands behind the value may be trimmed, and else it ends the value here too
  rw [← hparts, rdropWhile_append hvalue] at htrim
  have hrest := List.rdropWhile_prefix isWhitespace rest
  have hfirst : ∀ c ∈ (rest.rdropWhile isWhitespace).head?, c ∈ [',', ' '] := fun c hc =>
    hstop c (List.singleton_prefix_iff_head?_eq_some.mp
      ((List.singleton_prefix_iff_head?_eq_some.mpr hc).trans hrest))
  have htake := takeWhile_value hvalue hread hfirst
  rw [← htrim] at htake
  rw [valueBehind]
  split
  · rename_i inner hquote
    obtain ⟨t, ht⟩ := (List.prefix_append_right_inj value).mpr hrest
    rw [← htrim, hquote, hparts, List.cons_append] at ht
    exact (hplain _ ht.symm).elim
  · rw [htake, trim_eq_self hvalue]

/-- A value that is read by itself is the one that the client reads. -/
theorem valueBehind_of_frontValue {s value : Str} (h : frontValue s = some value) :
    valueBehind s = some value := by
  rw [frontValue] at h
  split at h
  · rename_i inner hquote
    obtain ⟨hvalue, -⟩ := Option.filter_eq_some_iff.mp h
    obtain ⟨⟨before, after⟩, hsplit, rfl⟩ := Option.map_eq_some_iff.mp hvalue
    exact valueBehind_of_split hquote hsplit
  · rename_i hplain
    obtain ⟨hspace, hvalue⟩ := Option.ite_none_left_eq_some.mp h
    rw [← Option.some.inj hvalue]
    exact valueBehind_plain hplain hspace

/-- A parameter of a challenge stands where it begins. -/
theorem exists_of_mem_paramsIn {challenge name value : Str} {offset : ℕ}
    (h : (offset, name, value) ∈ paramsIn challenge) :
    ∃ before spelling rest, challenge = before ++ (spelling ++ ['=']) ++ rest ∧
      byteLength before = offset ∧ byteLength spelling = byteLength name ∧
      frontValue rest = some value := by
  obtain ⟨n, -, hn⟩ := List.mem_filterMap.mp h
  obtain ⟨-, hparam⟩ := Option.ite_none_right_eq_some.mp hn
  obtain ⟨⟨_, _⟩, hfront, heq⟩ := Option.map_eq_some_iff.mp hparam
  obtain ⟨rfl, rfl, rfl⟩ : _ ∧ _ ∧ _ := by simpa using heq
  obtain ⟨⟨spelling, rest⟩, hsplit, hname⟩ := Option.bind_eq_some_iff.mp hfront
  obtain ⟨htoken, hread⟩ := Option.ite_none_right_eq_some.mp hname
  obtain ⟨_, hvalue, hpair⟩ := Option.map_eq_some_iff.mp hread
  obtain ⟨rfl, rfl⟩ := Prod.mk.inj hpair
  refine ⟨challenge.take n, spelling, rest, ?_, rfl, ?_, hvalue⟩
  · have hdrop := splitOnce_eq hsplit
    rw [List.append_assoc, List.append_assoc, ← hdrop, List.take_append_drop]
  -- a name is in ASCII, so that its lower case has as many bytes
  · have hascii : ∀ c ∈ spelling, c.toNat < 128 :=
      fun c hc => isTokenChar_lt (List.all_eq_true.mp htoken c hc)
    have hlower : ∀ c ∈ asciiLower spelling, c.toNat < 128 := by
      intro c hc
      obtain ⟨d, hd, rfl⟩ := List.mem_map.mp hc
      exact toLower_lt (hascii d hd)
    rw [byteLength_of_ascii hascii, byteLength_of_ascii hlower, asciiLower, List.length_map]

section

variable {env : Environment} {challenge name : Str}

/-- The client reads the parameter that it finds. -/
theorem exists_of_findsParam (h : FindsParam env challenge name) :
    ∃ value, extractAuthParam env challenge name = .ok (some value) ∧
      HasParam challenge name value := by
  obtain ⟨before, after, value, hsplit, hmem⟩ := h
  refine ⟨value, ?_, _, hmem⟩
  obtain ⟨front, spelling, rest, rfl, hbefore, hname, hvalue⟩ := exists_of_mem_paramsIn hmem
  have hbytes : byteLength before + byteLength (name ++ ['=']) =
      byteLength (front ++ (spelling ++ ['='])) := by
    rw [byteLength_append, byteLength_append, byteLength_append, hbefore, hname]
  rw [extractAuthParam_of_split hsplit, hbytes, dropBytes_append]
  exact congrArg Except.ok (valueBehind_of_frontValue hvalue)

/-- What the client finds nowhere it does not read. -/
theorem extractAuthParam_of_findsNone (h : FindsNone env challenge name) (value : Str) :
    extractAuthParam env challenge name ≠ .ok (some value) := by
  cases hsplit : splitOnce (env.toLowercase (name ++ ['='])) (env.toLowercase challenge) with
  | none =>
    rw [extractAuthParam, hsplit]
    rintro ⟨⟩
  | some parts =>
    obtain ⟨before, after⟩ := parts
    rw [extractAuthParam_of_split hsplit]
    cases hdrop : dropBytes (byteLength before + byteLength (name ++ ['='])) challenge with
    | none => rintro ⟨⟩
    | some rest =>
      obtain ⟨inner, htrim, hinner⟩ := h before after rest hsplit hdrop
      dsimp only
      rw [valueBehind_quote htrim, splitOnce_char_none hinner]
      rintro ⟨⟩

/-- **The realm and the nonce of an authorization** are parameters of the challenge, if this is
legible. -/
theorem digestAuthHeader_legible (hlegible : Legible env challenge) {target : Target}
    {cnonce url value : Str} {method : Method}
    (h : digestAuthHeader env target cnonce method url challenge = .ok value) :
    ∃ parsed : Challenge, HasParam challenge "realm".toList parsed.realm ∧
      HasParam challenge "nonce".toList parsed.nonce ∧
      value = (parsed.answer env.md5Hex target cnonce method url).text := by
  rw [digestAuthHeader_eq] at h
  obtain ⟨parsed, hparsed, rfl⟩ : ∃ parsed, parseChallenge env challenge = .ok parsed ∧
      (parsed.answer env.md5Hex target cnonce method url).text = value := by
    cases hparsed : parseChallenge env challenge with
    | error failure =>
      rw [hparsed] at h
      cases h
    | ok parsed =>
      rw [hparsed] at h
      exact ⟨parsed, rfl, Except.ok.inj h⟩
  obtain ⟨hrealm, hnonce, -⟩ := extractAuthParam_of_parseChallenge hparsed
  rcases hlegible with ⟨hfindsRealm, hfindsNonce⟩ | hnone | hnone
  · obtain ⟨realm, hreadRealm, hhasRealm⟩ := exists_of_findsParam hfindsRealm
    obtain ⟨nonce, hreadNonce, hhasNonce⟩ := exists_of_findsParam hfindsNonce
    obtain rfl : realm = parsed.realm := by simpa using hreadRealm.symm.trans hrealm
    obtain rfl : nonce = parsed.nonce := by simpa using hreadNonce.symm.trans hnonce
    exact ⟨parsed, hhasRealm, hhasNonce, rfl⟩
  · exact absurd hrealm (extractAuthParam_of_findsNone hnone _)
  · exact absurd hnonce (extractAuthParam_of_findsNone hnone _)

end

/-! ## Requests -/

variable (env : Environment) (target : Target)

/-- A challenge that came with status 401 in one of the exchanges. -/
def Challenged (before : Dialogue) (challenge : Str) : Prop :=
  ∃ e ∈ before, ∃ response, e.response = some response ∧ response.statusCode = 401 ∧
    extractHeader response.headers "WWW-Authenticate".toList = some challenge

/-- The authorizations of the request are computed for it from a challenge that was received. -/
def Answers (before : Dialogue) (request : Request) : Prop :=
  ∀ value, ("Authorization".toList, value) ∈ request.headers → ∃ challenge cnonce,
    Challenged before challenge ∧
      digestAuthHeader env target cnonce request.method request.url challenge = .ok value

/-- The exchange after `before` has the next number, counted from 1. -/
def Numbered (before : Dialogue) (e : Exchange) : Prop :=
  e.request.cseq = UInt32.ofNat (before.length + 1)

/-- **The exchange after `before` is fresh**: it has the next number, and every authorization is
computed for its method and address from the realm and the nonce of a challenge that was received. -/
def Fresh (before : Dialogue) (e : Exchange) : Prop :=
  Numbered before e ∧
    ∀ value, ("Authorization".toList, value) ∈ e.request.headers →
      ∃ (challenge : Str) (parsed : Challenge) (cnonce : Str), Challenged before challenge ∧
        HasParam challenge "realm".toList parsed.realm ∧
        HasParam challenge "nonce".toList parsed.nonce ∧
        value = (parsed.answer env.md5Hex target cnonce e.request.method e.request.url).text

/-- The requests so far have their numbers and answer challenges, the counter is that of the next one,
and the challenge that is to be answered was received on this connection. -/
structure Ready (challenge : Option Str) (client : Client) : Prop where
  sound : ∀ dialogue ∈ client.dialogues,
    Trace.Checked (fun before e => Numbered before e ∧ Answers env target before e.request) dialogue
  cseq : client.cseq = UInt32.ofNat (client.current.length + 1)
  challenged : ∀ wwwAuth, challenge = some wwwAuth → Challenged client.current wwwAuth

variable {env target}

theorem Challenged.append {before after : Dialogue} {challenge : Str}
    (h : Challenged before challenge) : Challenged (before ++ after) challenge := by
  obtain ⟨e, he, hresponse⟩ := h
  exact ⟨e, List.mem_append_left after he, hresponse⟩

namespace Ready

variable {challenge : Option Str} {client : Client}

theorem initial : Ready env target none Client.initial := by
  constructor
  · intro dialogue hdialogue
    obtain rfl := List.mem_singleton.mp hdialogue
    exact .nil
  · rfl
  · intro wwwAuth h
    cases h

theorem forget (h : Ready env target challenge client) : Ready env target none client := by
  refine ⟨h.sound, h.cseq, ?_⟩
  intro wwwAuth hnone
  cases hnone

/-- **A request that answers a challenge may be sent.** -/
theorem sent {request : Request} (response : Option Response)
    (h : Ready env target challenge client) (hcseq : request.cseq = client.cseq)
    (hanswers : Answers env target client.current request) :
    Ready env target challenge (client.sent request response) := by
  constructor
  · intro dialogue hdialogue
    rcases List.mem_append.mp hdialogue with hpast | hcurrent
    · exact h.sound dialogue (List.mem_append_left _ hpast)
    · -- the exchange is judged by those before it on this connection
      obtain rfl := List.mem_singleton.mp hcurrent
      have hcurrent := h.sound client.current List.mem_concat_self
      exact Trace.checked_snoc.mpr ⟨hcurrent, hcseq.trans h.cseq, hanswers⟩
  -- the counter and the number of exchanges move on together
  · simp only [Client.sent, List.length_append, List.length_singleton]
    rw [h.cseq, UInt32.ofNat_add (client.current.length + 1)]
    rfl
  · intro wwwAuth hchallenge
    exact (h.challenged wwwAuth hchallenge).append

/-- A new connection begins with the number 1, and without a challenge. -/
theorem reconnected (h : Ready env target challenge client) :
    Ready env target none client.reconnected := by
  constructor
  · intro dialogue hdialogue
    rcases List.mem_append.mp hdialogue with hpast | hcurrent
    · exact h.sound dialogue hpast
    · obtain rfl := List.mem_singleton.mp hcurrent
      exact .nil
  · rfl
  · intro wwwAuth hnone
    cases hnone

/-- The challenge of a response with status 401 may be answered. -/
theorem received {e : Exchange} {response : Response} {wwwAuth : Str}
    (h : Ready env target none client) (he : e ∈ client.current)
    (hresponse : e.response = some response) (hstatus : response.statusCode = 401)
    (hheader : extractHeader response.headers "WWW-Authenticate".toList = some wwwAuth) :
    Ready env target (some wwwAuth) client := by
  refine ⟨h.sound, h.cseq, ?_⟩
  rintro _ ⟨⟩
  exact ⟨e, he, response, hresponse, hstatus, hheader⟩

end Ready

/-! ## The steps -/

/-- The response was read on this connection. -/
def Heard (response : Response) (client : Client) : Prop :=
  ∃ e ∈ client.current, e.response = some response

/-- **A round trip** with a request that answers a challenge. -/
theorem roundTrip_ready {challenge : Option Str} {request : Client → Request}
    (hcseq : ∀ client, (request client).cseq = client.cseq)
    (hanswers : ∀ client, Ready env target challenge client →
      Answers env target client.current (request client)) :
    Triple (Ready env target challenge) (roundTrip env request)
      (fun response client => Ready env target challenge client ∧ Heard response client)
      fun _ => Ready env target none := by
  refine (roundTrip_triple request).weaken ?_ ?_
  · rintro response _ ⟨client, h, -, rfl⟩
    refine ⟨h.sent _ (hcseq client) (hanswers client h), ?_⟩
    exact ⟨_, List.mem_concat_self, rfl⟩
  · rintro failure _ ⟨client, h, rfl⟩
    exact (h.sent _ (hcseq client) (hanswers client h)).forget

theorem reconnect_ready {challenge : Option Str} :
    Triple (Ready env target challenge) (reconnect env) (fun _ => Ready env target none)
      fun _ => Ready env target none := by
  refine reconnect_triple.weaken ?_ fun _ _ => Ready.forget
  rintro _ _ ⟨client, h, rfl⟩
  exact h.reconnected

/-- The challenge of a response that was read on this connection. -/
theorem challenge_ready {response : Response} (hstatus : response.statusCode = 401) :
    Triple (fun client => Ready env target none client ∧ Heard response client)
      (orFail (extractHeader response.headers "WWW-Authenticate".toList))
      (fun wwwAuth => Ready env target (some wwwAuth)) fun _ => Ready env target none := by
  refine (orFail_triple _).weaken ?_ fun _ _ h => h.1
  rintro wwwAuth client ⟨hheader, h, e, he, hresponse⟩
  exact h.received he hresponse hstatus hheader

/-- An authorization that was computed from the challenge, if there is one. -/
def Authorizes (env : Environment) (target : Target) (method : Method) (url : Str)
    (challenge auth : Option Str) : Prop :=
  ∀ value, auth = some value → ∃ wwwAuth cnonce, challenge = some wwwAuth ∧
    digestAuthHeader env target cnonce method url wwwAuth = .ok value

theorem Authorizes.none {method : Method} {url : Str} {challenge : Option Str} :
    Authorizes env target method url challenge none := by
  intro value h
  cases h

/-- A request that carries an authorization answers the challenge it was computed from. -/
theorem Ready.answers {challenge auth : Option Str} {client : Client} {request : Request}
    (h : Ready env target challenge client)
    (hauth : Authorizes env target request.method request.url challenge auth)
    (hheaders : ∀ value, ("Authorization".toList, value) ∈ request.headers → auth = some value) :
    Answers env target client.current request := by
  intro value hvalue
  obtain ⟨wwwAuth, cnonce, hchallenge, hheader⟩ := hauth value (hheaders value hvalue)
  exact ⟨wwwAuth, cnonce, h.challenged wwwAuth hchallenge, hheader⟩

theorem eq_of_mem_authHeader {auth : Option Str} {value : Str}
    (h : ("Authorization".toList, value) ∈ authHeader auth) : auth = some value := by
  cases auth with
  | none => cases h
  | some header =>
    obtain ⟨-, rfl⟩ := Prod.mk.inj (List.mem_singleton.mp h)
    rfl

theorem describeRequest_ready {challenge auth : Option Str}
    (hauth : Authorizes env target .describe (rtspUrl target) challenge auth) :
    Triple (Ready env target challenge) (roundTrip env (describeRequest target auth))
      (fun response client => Ready env target challenge client ∧ Heard response client)
      fun _ => Ready env target none := by
  refine roundTrip_ready (fun _ => rfl) fun client h => h.answers hauth ?_
  intro value hvalue
  rcases List.mem_cons.mp hvalue with haccept | hauth
  · have hname : "Authorization".toList ≠ "Accept".toList := by decide
    exact absurd (congrArg Prod.fst haccept) hname
  · exact eq_of_mem_authHeader hauth

theorem setupRequest_ready {challenge auth : Option Str} {url : Str} (interleavedBase : UInt8)
    (hauth : Authorizes env target .setup url challenge auth) :
    Triple (Ready env target challenge) (roundTrip env (setupRequest url auth interleavedBase))
      (fun response client => Ready env target challenge client ∧ Heard response client)
      fun _ => Ready env target none := by
  refine roundTrip_ready (fun _ => rfl) fun client h => h.answers hauth ?_
  intro value hvalue
  rcases List.mem_append.mp hvalue with hvalue | htransport
  · rcases List.mem_append.mp hvalue with hsession | hauth
    · obtain ⟨session, -, hsession⟩ := Option.map_eq_some_iff.mp (Option.mem_toList.mp hsession)
      have hname : "Session".toList ≠ "Authorization".toList := by decide
      exact absurd (congrArg Prod.fst hsession) hname
    · exact eq_of_mem_authHeader hauth
  · have hname : "Authorization".toList ≠ "Transport".toList := by decide
    exact absurd (congrArg Prod.fst (List.mem_singleton.mp htransport)) hname

/-- A request of which no header is an authorization. -/
theorem plainRequest_ready {request : Client → Request}
    (hcseq : ∀ client, (request client).cseq = client.cseq)
    (hheaders : ∀ client, ∀ header ∈ (request client).headers,
      header.1 ≠ "Authorization".toList) :
    Triple (Ready env target none) (roundTrip env request)
      (fun response client => Ready env target none client ∧ Heard response client)
      fun _ => Ready env target none := by
  refine roundTrip_ready hcseq fun client h => h.answers .none ?_
  intro value hvalue
  exact absurd rfl (hheaders client _ hvalue)

theorem options_ready : Keeps (Ready env target none) (options env target) := by
  refine Triple.bind (plainRequest_ready (fun _ => rfl) ?_) fun response client h => h.1
  intro client header hheader
  cases hheader

theorem play_ready : Keeps (Ready env target none) (play env target) := by
  have hname : "Session".toList ≠ "Authorization".toList := by decide
  refine Triple.bind (plainRequest_ready (fun _ => rfl) ?_) fun response client h => h.1
  intro client header hheader
  rwa [List.mem_singleton.mp hheader]

/-- The value of a response is taken, or the step fails. -/
theorem orFail_ready {α : Type} {response : Response} (a? : Option α) :
    Triple (fun client => Ready env target none client ∧ Heard response client) (orFail a?)
      (fun _ => Ready env target none) fun _ => Ready env target none :=
  (orFail_triple a?).weaken (fun _ _ h => h.2.1) fun _ _ h => h.1

/-- The authorization answers the challenge. -/
theorem authorization_ready (method : Method) (uri wwwAuth : Str) :
    Triple (Ready env target (some wwwAuth)) (authorization env target method uri wwwAuth)
      (fun header client => Authorizes env target method uri (some wwwAuth) (some header) ∧
        Ready env target (some wwwAuth) client) fun _ => Ready env target none := by
  refine (authorization_triple method uri wwwAuth).weaken ?_
    fun _ _ => Ready.forget
  rintro header client ⟨⟨cnonce, hheader⟩, h⟩
  refine ⟨?_, h⟩
  rintro _ ⟨⟩
  exact ⟨wwwAuth, cnonce, rfl, hheader⟩

theorem tryDescribe_ready : Keeps (Ready env target none) (tryDescribe env target) := by
  refine Triple.bind (describeRequest_ready .none) fun response => ?_
  split_ifs
  · exact orFail_ready _
  · exact (Triple.throw _).pre fun _ h => h.1

theorem digestDescribe_ready : Keeps (Ready env target none) (digestDescribe env target) := by
  refine Triple.bind (describeRequest_ready .none) fun response => ?_
  split_ifs with hok hstatus
  · exact orFail_ready _
  · exact (Triple.throw _).pre fun _ h => h.1
  · -- the challenge is answered on the connection on which it was received
    refine Triple.bind (challenge_ready (not_not.mp hstatus)) fun wwwAuth => ?_
    refine Triple.bind (authorization_ready _ _ wwwAuth) fun auth => .of_pre fun hauth => ?_
    refine Triple.bind (describeRequest_ready hauth) fun response => ?_
    split_ifs
    · exact (orFail_ready _).pre fun _ h => ⟨h.1.forget, h.2⟩
    · exact (Triple.throw _).pre fun _ h => h.1.forget

theorem describe_ready : Keeps (Ready env target none) (describe env target) := by
  refine .bind tryDescribe_ready.attempt ?_
  rintro (_ | media)
  · refine .bind digestDescribe_ready.attempt ?_
    rintro (_ | media)
    · exact .bind reconnect_ready fun _ => digestDescribe_ready
    · exact .pure media
  · exact .pure media

/-- A challenge for SETUP is received on the connection on which it will be answered. -/
theorem fetchSetupChallenge_ready (media : List SdpMedia) :
    Triple (Ready env target none) (fetchSetupChallenge env target media)
      (fun wwwAuth => Ready env target (some wwwAuth)) fun _ => Ready env target none := by
  have hname : "Transport".toList ≠ "Authorization".toList := by decide
  refine .bind (orFail_keeps media.head?) fun first => ?_
  refine .bind (ofExcept_keeps (trackUrl target first)) fun url => ?_
  refine .bind (plainRequest_ready (fun _ => rfl) ?_) fun response => ?_
  · intro client header hheader
    rwa [List.mem_singleton.mp hheader]
  · split_ifs with hstatus
    · exact (Triple.throw _).pre fun _ h => h.1
    · exact challenge_ready (not_not.mp hstatus)

/-- A new session leaves the requests and the counter alone. -/
theorem storeSession_ready {challenge : Option Str} (headers : Str) :
    Keeps (Ready env target challenge) (storeSession headers) := by
  refine (storeSession_triple headers).post ?_
  rintro _ _ ⟨client, session, h, rfl⟩
  exact ⟨h.sound, h.cseq, h.challenged⟩

theorem trackAuthorization_ready (url : Str) (challenge : Option Str) :
    Triple (Ready env target challenge) (trackAuthorization env target url challenge)
      (fun auth client => Authorizes env target .setup url challenge auth ∧
        Ready env target challenge client) fun _ => Ready env target none := by
  cases challenge with
  | none => exact (Triple.pure none).pre fun _ h => ⟨.none, h⟩
  | some wwwAuth =>
    rw [trackAuthorization, map_eq_pure_bind]
    exact .bind (authorization_ready .setup url wwwAuth) fun header client h => h

theorem doSetupTrack_ready (media : SdpMedia) (interleavedBase : UInt8) (challenge : Option Str) :
    Triple (Ready env target challenge) (doSetupTrack env target media interleavedBase challenge)
      (fun _ => Ready env target challenge) fun _ => Ready env target none := by
  refine .bind (Triple.fails (ofExcept_keeps (trackUrl target media))
    fun _ _ => Ready.forget) fun url => ?_
  refine .bind (trackAuthorization_ready url challenge) fun auth => .of_pre fun hauth => ?_
  refine .bind (setupRequest_ready interleavedBase hauth) fun response => ?_
  split_ifs
  · exact (Triple.throw _).pre fun _ h => h.1.forget
  · refine Triple.pre (Triple.fails (storeSession_ready response.headers) ?_) fun _ h => h.1
    exact fun _ _ => Ready.forget

theorem setupAllTracks_ready (challenge : Option Str) (media : List SdpMedia) (i : ℕ) :
    Triple (Ready env target challenge) (setupAllTracks env target challenge i media)
      (fun _ => Ready env target challenge) fun _ => Ready env target none := by
  induction media generalizing i with
  | nil =>
    intro client h
    exact h
  | cons m media ih => exact .bind (doSetupTrack_ready m _ challenge) fun _ => ih (i + 1)

theorem setupAll_ready (media : List SdpMedia) :
    Keeps (Ready env target none) (setupAll env target media) := by
  refine .bind (Keeps.attempt (setupAllTracks_ready none media 0)) ?_
  rintro (_ | _)
  · refine .bind reconnect_ready fun _ => ?_
    refine Triple.bind (fetchSetupChallenge_ready media) fun wwwAuth => ?_
    exact (setupAllTracks_ready (some wwwAuth) media 0).post fun _ _ => Ready.forget
  · exact .pure ()

theorem connect_ready : Keeps (Ready env target none) (connect env target) := by
  refine .bind accept_triple fun _ => .bind options_ready fun _ => ?_
  exact .bind describe_ready fun media => .bind (setupAll_ready media) fun _ => play_ready

/-- A camera with one section that asks for an authorization of DESCRIBE and SETUP. -/
def guardedCamera (challenge : String) : Environment where
  accepts _ := .ok ()
  answer _ _ text := .ok <|
    if (splitOnce "Authorization".toList text).isSome ∨ "PLAY".toList.isPrefixOf text then
      ⟨200, [], "m=video 0 RTP/AVP 96\n".toList⟩
    else ⟨401, "WWW-Authenticate: ".toList ++ challenge.toList ++ "\r\n".toList, []⟩
  generateCnonce _ _ := []
  md5Hex := id
  toLowercase := asciiLower

def guardedTarget : Target := ⟨"cam".toList, 88, [], [], []⟩

/-- The dialogue of the last connection to the camera. -/
def guardedDialogue (challenge : String) : Dialogue :=
  (final (connect (guardedCamera challenge) guardedTarget) .initial).current

/-- The client reads the nonce of this challenge, and in the other one that of the client. -/
def plainChallenge : String := "Digest realm=\"IPCAM\", nonce=\"1f\""

def cnonceChallenge : String := "Digest cnonce=\"c0ffee\", realm=\"IPCAM\", nonce=1f"

/-- A property of the challenges that came can be decided, response by response. -/
theorem forall_challenged {P : Str → Prop} {before : Dialogue}
    (h : ∀ e ∈ before, ∀ response ∈ e.response, response.statusCode = 401 →
      ∀ challenge ∈ extractHeader response.headers "WWW-Authenticate".toList, P challenge) :
    ∀ challenge, Challenged before challenge → P challenge := by
  rintro challenge ⟨e, he, response, hresponse, hstatus, hchallenge⟩
  exact h e he response hresponse hstatus challenge hchallenge

/-- The text of an authorization up to the nonce. -/
def authorizationFront (username realm nonce : Str) : Str :=
  "Digest username=".toList ++ quoted username ++ ", realm=".toList ++ quoted realm ++
    ", nonce=".toList ++ quoted nonce

theorem prefix_append_seven (s a b c d e f g : Str) :
    s <+: s ++ a ++ b ++ c ++ d ++ e ++ f ++ g := by
  simp only [List.append_assoc, List.prefix_append]

theorem authorizationFront_prefix (md5Hex : Str → Str) (target : Target) (cnonce : Str)
    (method : Method) (url : Str) (challenge : Challenge) :
    authorizationFront target.user challenge.realm challenge.nonce <+:
      (challenge.answer md5Hex target cnonce method url).text :=
  prefix_append_seven _ _ _ _ _ _ _ _

end RtspClient

end Fosipcore
