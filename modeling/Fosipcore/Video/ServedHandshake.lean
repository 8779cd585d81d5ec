import Fosipcore.Video.Camera

/-!
# The handshake with a camera

The client completes the handshake with a camera that keeps to the protocol, if it has the credentials
of the user or needs none. Every track is set up and played, the `i`-th one on the channels `2 * i`
and `2 * i + 1`. With other credentials nothing is ever set up.

Both runs follow the camera step by step: before the first SETUP that is accepted nothing was set up
on any connection, and from then on it is the tracks so far.

## Main definitions

* `Reaches`: the client is told of the camera
* `NothingGranted`, `Progress`: where the handshake is
* `Separates`: the hash tells the credentials of the user from those of the client

## Main results

* `describe_known`, `setupAll_known`: the steps with the credentials of the user
* `connect_served`: the handshake with the credentials of the user
* `connect_refused`: the handshake with other credentials
-/

namespace Fosipcore

namespace RtspClient

open Text Fallible

variable {camera : Camera}

/-! ## Requests and their answers -/

/-- **The client is told of the camera**, which is what it connects to, and the texts that go into an
authorization can be quoted. -/
structure Reaches (env : Environment) (camera : Camera) (target : Target) : Prop where
  accepts : ∀ past, env.accepts past = .ok ()
  answer : ∀ past current text,
    env.answer past current text = .ok (camera.answer past.length current text)
  md5Hex : env.md5Hex = camera.md5Hex
  toLowercase : Lowers env.toLowercase
  url : rtspUrl target = camera.url
  clean : CleanTarget env target
  quote_url : '\"' ∉ camera.url
  quote_user : '\"' ∉ target.user
  quote_md5Hex : ∀ s, '\"' ∉ camera.md5Hex s
  quote_cnonce : ∀ past current, '\"' ∉ env.generateCnonce past current

variable {env : Environment} {target : Target} {client : Client} {n : ℕ}

/-- A clean request is answered by the camera. -/
theorem roundTrip_answered (h : Reaches env camera target) {request : Client → Request}
    (hrequest : (request client).Clean) :
    roundTrip env request client =
      .ok (camera.respond client.past.length client.current (request client))
        (client.sent (request client)
          (some (camera.respond client.past.length client.current (request client)))) := by
  have hanswer : camera.answer client.past.length client.current (request client).text =
      camera.respond client.past.length client.current (request client) := by
    rw [Camera.answer, Request.read_text hrequest]
  rw [roundTrip, h.answer, hanswer]

/-- The authorization of the client for a request on the connection `n`. -/
def reply (env : Environment) (camera : Camera) (target : Target) (n : ℕ) (client : Client)
    (method : Method) (uri : Str) : DigestHeader :=
  (camera.account.challenge (camera.nonce n) camera.qop).answer camera.md5Hex target
    (env.generateCnonce client.past client.current) method uri

theorem digestAuthHeader_reply (h : Reaches env camera target) (method : Method) (uri : Str) :
    digestAuthHeader env target (env.generateCnonce client.past client.current) method uri
      (camera.challengeText n) = .ok (reply env camera target n client method uri).text := by
  rw [digestAuthHeader_eq, parseChallenge_challengeText h.toLowercase, h.md5Hex]
  rfl

theorem authorization_reply (h : Reaches env camera target) (method : Method) (uri : Str) :
    authorization env target method uri (camera.challengeText n) client =
      .ok (reply env camera target n client method uri).text client := by
  rw [authorization, digestAuthHeader_reply h]

/-- The camera accepts the authorization of a client with the credentials of the user. -/
theorem authorizes_reply (h : Reaches env camera target) (n : ℕ) (client : Client)
    {request : Request} (huri : '\"' ∉ request.url) (hauth : request.header "Authorization".toList =
      some (reply env camera target n client request.method request.url).text) :
    camera.authorizes n request = true ↔
      (reply env camera target n client request.method request.url).Vouches camera.md5Hex
        camera.account (camera.nonce n) request.method request.url := by
  have hplain : (reply env camera target n client request.method request.url).Plain :=
    answer_plain camera.isQuotable_realm.not_mem (camera.isQuotable_nonce n).not_mem h.quote_user
      huri h.quote_md5Hex (h.quote_cnonce client.past client.current)
  rw [Camera.authorizes, hauth, Option.bind_some, DigestHeader.read_text hplain, Option.any_some,
    decide_eq_true_eq]

/-- Nothing was set up on any connection. -/
structure NothingGranted (n : ℕ) (client : Client) : Prop where
  past : client.past.length = n
  session : client.session = none
  granted : ∀ dialogue ∈ client.dialogues, granted dialogue = []

theorem NothingGranted.initial : NothingGranted 0 Client.initial := by
  refine ⟨rfl, rfl, fun dialogue hdialogue => ?_⟩
  rw [List.mem_singleton.mp hdialogue]
  rfl

theorem granted_snoc (dialogue : Dialogue) (e : Exchange) :
    granted (dialogue ++ [e]) = granted dialogue ++ e.grant.toList := by
  rw [granted, List.filterMap_append, granted]
  cases hgrant : e.grant <;> simp [hgrant]

theorem NothingGranted.sent (h : NothingGranted n client) {request : Request} {response : Response}
    (hgrant : Exchange.grant ⟨request, some response⟩ = none) :
    NothingGranted n (client.sent request (some response)) := by
  refine ⟨h.past, h.session, fun dialogue hdialogue => ?_⟩
  rcases List.mem_append.mp hdialogue with hpast | hcurrent
  · exact h.granted dialogue (List.mem_append_left _ hpast)
  · rw [List.mem_singleton.mp hcurrent]
    refine (granted_snoc _ _).trans ?_
    rw [h.granted client.current List.mem_concat_self, hgrant]
    rfl

theorem NothingGranted.reconnected (h : NothingGranted n client) :
    NothingGranted (n + 1) client.reconnected := by
  refine ⟨?_, h.session, fun dialogue hdialogue => ?_⟩
  · have hlength : client.dialogues.length = client.past.length + 1 := List.length_append
    exact hlength.trans (congrArg (· + 1) h.past)
  · rcases List.mem_append.mp hdialogue with hpast | hcurrent
    · exact h.granted dialogue hpast
    · rw [List.mem_singleton.mp hcurrent]
      rfl

theorem reconnect_reaches (h : Reaches env camera target) (client : Client) :
    reconnect env client = .ok () client.reconnected := by
  rw [reconnect, h.accepts]

/-- Only a SETUP is granted. -/
theorem grant_of_method {request : Request} {response : Option Response}
    (h : request.method ≠ .setup) : Exchange.grant ⟨request, response⟩ = none :=
  if_neg fun hsetup => h hsetup.1

/-- Only what is accepted is granted. -/
theorem grant_of_status {request : Request} {response : Response} (h : response.statusCode ≠ 200) :
    Exchange.grant ⟨request, some response⟩ = none :=
  if_neg fun hsetup => h (Option.some.inj hsetup.2)

/-! ## DESCRIBE -/

theorem options_answered (h : Reaches env camera target) (hclient : NothingGranted n client) :
    ∃ client', NothingGranted n client' ∧ options env target client = .ok () client' := by
  have hclean : (optionsRequest target client).Clean :=
    ⟨oneLine_rtspUrl h.clean, List.forall_mem_nil _⟩
  refine ⟨_, hclient.sent (grant_of_method ?_), bind_of_ok (roundTrip_answered h hclean)⟩
  rintro ⟨⟩

theorem oneLine_none : ∀ header, (none : Option Str) = some header → OneLine header := by
  rintro _ ⟨⟩

theorem header_describeRequest (auth : Option Str) (client : Client) :
    (describeRequest target auth client).header "Authorization".toList = auth := by
  cases auth <;> rfl

/-- DESCRIBE is answered with the description, or with a challenge. -/
theorem describe_answered (h : Reaches env camera target) (hclient : NothingGranted n client)
    {auth : Option Str} (hauth : ∀ header, auth = some header → OneLine header) :
    ∃ client', NothingGranted n client' ∧ roundTrip env (describeRequest target auth) client =
      .ok (if camera.guardsDescribe ∧
          camera.authorizes n (describeRequest target auth client) = false then
        camera.unauthorized n else ⟨200, [], describeTracks camera.tracks⟩) client' := by
  have hanswer := roundTrip_answered h (describeRequest_clean h.clean hauth client)
  have hrespond : camera.respond client.past.length client.current
      (describeRequest target auth client) =
        if camera.guardsDescribe ∧
            camera.authorizes n (describeRequest target auth client) = false then
          camera.unauthorized n else ⟨200, [], describeTracks camera.tracks⟩ := by
    have hurl : (describeRequest target auth client).url = camera.url := h.url
    rw [Camera.respond, hclient.past]
    exact if_congr Iff.rfl rfl (if_pos hurl)
  rw [hrespond] at hanswer
  refine ⟨_, hclient.sent (grant_of_method ?_), hanswer⟩
  rintro ⟨⟩

theorem statusCode_unauthorized (camera : Camera) (n : ℕ) :
    ¬ (camera.unauthorized n).statusCode = 200 ∧ ¬ (camera.unauthorized n).statusCode ≠ 401 := by
  have hne : ¬ (401 : UInt16) = 200 := by decide
  exact ⟨hne, not_not.mpr rfl⟩

/-- Without an authorization, DESCRIBE succeeds if none is asked for. -/
theorem tryDescribe_open (h : Reaches env camera target) (hclient : NothingGranted n client)
    (hguard : camera.guardsDescribe = false) (htracks : camera.tracks ≠ []) :
    ∃ client', NothingGranted n client' ∧
      tryDescribe env target client = .ok (camera.tracks.map Track.media) client' := by
  obtain ⟨client', hclient', hanswer⟩ :=
    describe_answered h hclient oneLine_none
  rw [if_neg (by rw [hguard]; simp)] at hanswer
  refine ⟨client', hclient', (bind_of_ok hanswer).trans ?_⟩
  rw [if_pos rfl, parseSdpMedia_describeTracks htracks]
  rfl

theorem authorizes_describe_none (camera : Camera) (n : ℕ) (client : Client) :
    camera.authorizes n (describeRequest target none client) = false := by
  rw [Camera.authorizes, header_describeRequest]
  rfl

theorem tryDescribe_guarded (h : Reaches env camera target) (hclient : NothingGranted n client)
    (hguard : camera.guardsDescribe = true) :
    ∃ client', NothingGranted n client' ∧ tryDescribe env target client = .error .failed client' := by
  obtain ⟨client', hclient', hanswer⟩ :=
    describe_answered h hclient oneLine_none
  rw [if_pos ⟨hguard, authorizes_describe_none camera n client⟩] at hanswer
  refine ⟨client', hclient', (bind_of_ok hanswer).trans ?_⟩
  rw [if_neg (statusCode_unauthorized camera n).1]
  rfl

/-- A challenge ends with a quotation mark. -/
theorem challengeText_concat (before : List AuthParam) {name value : Str} (hname : IsName name)
    (hvalue : '\"' ∉ value) :
    ∃ init, challengeText (before ++ [quotedParam hname hvalue]) = init ++ ['\"'] := by
  refine ⟨front before ++ ((name ++ ['=']) ++ '\"' :: value), ?_⟩
  rw [challengeText_eq]
  have hvalueText : (quotedParam hname hvalue).valueText ++ behind [] = '\"' :: value ++ ['\"'] :=
    List.append_nil _
  have hname' : (quotedParam hname hvalue).name = name := rfl
  rw [hvalueText, hname']
  simp only [List.append_assoc, List.cons_append]

theorem exists_challengeText (camera : Camera) (n : ℕ) :
    ∃ init, camera.challengeText n = init ++ ['\"'] := by
  rw [Camera.challengeText, Camera.challengeParams]
  split_ifs
  · exact challengeText_concat _ isName_qop quote_not_mem_auth
  · exact challengeText_concat [quotedParam isName_realm camera.isQuotable_realm.not_mem]
      isName_nonce (camera.isQuotable_nonce n).not_mem

/-- A challenge is on one line. -/
theorem oneLine_challengeText (camera : Camera) (n : ℕ) : OneLine (camera.challengeText n) := by
  intro hmem
  have hquotable : ∀ p ∈ camera.challengeParams n, IsQuotable p.value :=
    fun p hp => (challengeParams_cases hp).2
  exact (plain_front hquotable _ ((prefix_challengeText _).subset hmem)).2 rfl

/-- The challenge is found in the answer. -/
theorem extractHeader_unauthorized (camera : Camera) (n : ℕ) :
    extractHeader (camera.unauthorized n).headers "WWW-Authenticate".toList =
      some (camera.challengeText n) := by
  have hname : ':' ∉ "WWW-Authenticate".toList ∧ OneLine "WWW-Authenticate".toList ∧
      trim "WWW-Authenticate".toList = "WWW-Authenticate".toList := by decide
  have htrim : trim (camera.challengeText n) = camera.challengeText n := by
    refine trim_of_ends ?_ fun c hc => ?_
    · rintro c ⟨⟩
      decide
    · obtain ⟨init, hinit⟩ := exists_challengeText camera n
      rw [hinit, List.getLast?_concat] at hc
      obtain rfl := Option.some.inj hc
      decide
  have hheaders : "WWW-Authenticate: ".toList = "WWW-Authenticate".toList ++ ": ".toList := rfl
  rw [Camera.unauthorized, hheaders]
  exact extractHeader_line hname.1 hname.2.1 hname.2.2 (oneLine_challengeText camera n) htrim

/-- So is an answer to it. -/
theorem oneLine_reply (h : Reaches env camera target) (client : Client) (method : Method)
    {uri : Str} (huri : OneLine uri) : OneLine (reply env camera target n client method uri).text :=
  oneLine_digestAuthHeader h.clean (h.clean.generateCnonce _ _) huri (oneLine_challengeText camera n)
    (digestAuthHeader_reply h method uri)

/-- **With an authorization**, DESCRIBE succeeds if the camera accepts it. -/
theorem digestDescribe_guarded (h : Reaches env camera target) (hclient : NothingGranted n client)
    (hguard : camera.guardsDescribe = true) (htracks : camera.tracks ≠ []) :
    ∃ client₁ client', NothingGranted n client' ∧ digestDescribe env target client =
      if (reply env camera target n client₁ .describe (rtspUrl target)).Vouches camera.md5Hex
        camera.account (camera.nonce n) .describe (rtspUrl target) then
          .ok (camera.tracks.map Track.media) client'
        else .error .failed client' := by
  obtain ⟨client₁, hclient₁, hfirst⟩ := describe_answered h hclient oneLine_none
  rw [if_pos ⟨hguard, authorizes_describe_none camera n client⟩] at hfirst
  have hstatus := statusCode_unauthorized camera n
  have hauth : ∀ header,
      some (reply env camera target n client₁ .describe (rtspUrl target)).text = some header →
        OneLine header := by
    rintro _ ⟨⟩
    exact oneLine_reply h client₁ .describe (oneLine_rtspUrl h.clean)
  obtain ⟨client', hclient', hsecond⟩ := describe_answered h hclient₁ hauth
  have hquote : '\"' ∉ rtspUrl target := h.url.symm ▸ h.quote_url
  have hauthorizes := authorizes_reply h n client₁ hquote (header_describeRequest
    (some (reply env camera target n client₁ .describe (rtspUrl target)).text) client₁)
  refine ⟨client₁, client', hclient', (bind_of_ok hfirst).trans ?_⟩
  rw [if_neg hstatus.1, if_neg hstatus.2, extractHeader_unauthorized]
  refine (bind_of_ok rfl).trans ((bind_of_ok (authorization_reply h .describe _)).trans ?_)
  by_cases hvouches : (reply env camera target n client₁ .describe (rtspUrl target)).Vouches
    camera.md5Hex camera.account (camera.nonce n) .describe (rtspUrl target)
  · have hyes := hauthorizes.mpr hvouches
    rw [if_neg fun hrefused => Bool.false_ne_true (hrefused.2.symm.trans hyes)] at hsecond
    refine (bind_of_ok hsecond).trans ?_
    rw [if_pos hvouches, if_pos rfl, parseSdpMedia_describeTracks htracks]
    rfl
  · have hno := Bool.eq_false_iff.mpr fun hyes => hvouches (hauthorizes.mp hyes)
    rw [if_pos (And.intro hguard hno)] at hsecond
    refine (bind_of_ok hsecond).trans ?_
    rw [if_neg hvouches, if_neg hstatus.1]
    rfl

/-- The camera accepts an authorization of its user. -/
theorem reply_vouches (hknows : camera.knows target) (n : ℕ) (client : Client) (method : Method)
    (uri : Str) :
    (reply env camera target n client method uri).Vouches camera.md5Hex camera.account
      (camera.nonce n) method uri :=
  answer_vouches hknows.1 hknows.2

/-- **The hash tells the passwords apart**, that of the user and that of the client, in every
authorization that the client has for the camera on the two connections of a handshake. -/
def Separates (env : Environment) (camera : Camera) (target : Target) : Prop :=
  ∀ n ≤ 1, ∀ (client : Client) (method : Method),
    ∀ uri ∈ camera.url :: camera.tracks.map camera.address,
      (reply env camera target n client method uri).Separates camera.md5Hex method target.pwd
        camera.account.pwd

/-- It accepts no other one. -/
theorem reply_not_vouches (hseparates : Separates env camera target)
    (hknows : ¬ camera.knows target) (hn : n ≤ 1) (client : Client) (method : Method) {uri : Str}
    (huri : uri ∈ camera.url :: camera.tracks.map camera.address) :
    ¬ (reply env camera target n client method uri).Vouches camera.md5Hex camera.account
      (camera.nonce n) method uri :=
  fun hvouches => hknows (of_answer_vouches (hseparates n hn client method uri huri) hvouches)

/-- DESCRIBE succeeds, with the credentials of the user where they are asked for. -/
theorem describe_known (h : Reaches env camera target) (hclient : NothingGranted n client)
    (htracks : camera.tracks ≠ [])
    (hknows : camera.guardsDescribe = true → camera.knows target) :
    ∃ client', NothingGranted n client' ∧
      describe env target client = .ok (camera.tracks.map Track.media) client' := by
  cases hguard : camera.guardsDescribe with
  | false =>
    obtain ⟨client', hclient', htry⟩ := tryDescribe_open h hclient hguard htracks
    exact ⟨client', hclient', bind_of_ok (attempt_of_ok htry)⟩
  | true =>
    obtain ⟨client₁, hclient₁, htry⟩ := tryDescribe_guarded h hclient hguard
    obtain ⟨client₂, client', hclient', hdigest⟩ :=
      digestDescribe_guarded h hclient₁ hguard htracks
    rw [if_pos (reply_vouches (hknows hguard) n client₂ .describe _)] at hdigest
    refine ⟨client', hclient', (bind_of_ok (attempt_of_error htry rfl)).trans ?_⟩
    exact bind_of_ok (attempt_of_ok hdigest)

/-- With other credentials DESCRIBE fails, on a second connection. -/
theorem describe_unknown (h : Reaches env camera target) (hclient : NothingGranted 0 client)
    (htracks : camera.tracks ≠ []) (hguard : camera.guardsDescribe = true)
    (hseparates : Separates env camera target) (hknows : ¬ camera.knows target) :
    ∃ client', NothingGranted 1 client' ∧ describe env target client = .error .failed client' := by
  have huri : rtspUrl target ∈ camera.url :: camera.tracks.map camera.address :=
    h.url ▸ List.mem_cons_self
  obtain ⟨client₁, hclient₁, htry⟩ := tryDescribe_guarded h hclient hguard
  obtain ⟨client₂, client₃, hclient₃, hfirst⟩ := digestDescribe_guarded h hclient₁ hguard htracks
  obtain ⟨client₄, client', hclient', hsecond⟩ :=
    digestDescribe_guarded h hclient₃.reconnected hguard htracks
  rw [if_neg (reply_not_vouches hseparates hknows zero_le_one client₂ .describe huri)] at hfirst
  rw [if_neg (reply_not_vouches hseparates hknows le_rfl client₄ .describe huri)] at hsecond
  refine ⟨client', hclient', (bind_of_ok (attempt_of_error htry rfl)).trans ?_⟩
  refine (bind_of_ok (attempt_of_error hfirst rfl)).trans ?_
  exact (bind_of_ok (reconnect_reaches h client₃)).trans hsecond

/-! ## SETUP -/

/-- The client resolves the name of a track to its address. -/
theorem trackUrl_media (h : Reaches env camera target) (track : Track) :
    trackUrl target track.media = .ok (camera.address track) := by
  have hslash : '/' ∉ track.name :=
    fun hmem => (isTrackChar_plain (track.isTrackChar_name _ hmem)).2 (by decide)
  have hstar : ¬ (track.name = [] ∨ track.name = ['*']) := by
    rintro (hnil | hstar)
    · exact track.name_ne_nil hnil
    · exact (isTrackChar_plain (track.isTrackChar_name '*' (hstar ▸ List.mem_cons_self))).2
        (by decide)
  have hscheme : stripPrefix "rtsp://".toList track.name = none := by
    rw [Option.eq_none_iff_forall_ne_some]
    intro rest hrest
    have hmem : '/' ∈ "rtsp://".toList := by decide
    rw [eq_of_stripPrefix hrest] at hslash
    exact hslash (List.mem_append_left _ hmem)
  have hfront : ¬ ['/'].isPrefixOf track.name = true := by
    intro hpre
    exact hslash ((List.isPrefixOf_iff_prefix.mp hpre).subset List.mem_cons_self)
  have hsep : (if ['/'].isPrefixOf track.name ∨ ['/'].isSuffixOf camera.url then [] else ['/']) =
      if ['/'].isSuffixOf camera.url then [] else ['/'] :=
    if_congr (or_iff_right hfront) rfl rfl
  rw [trackUrl, Track.media]
  dsimp only
  rw [resolveControlUrl, track.trim_name, if_neg hstar, hscheme, h.url]
  dsimp only
  rw [hsep, Camera.address]

theorem trackUrl_answered (h : Reaches env camera target) (track : Track) (client : Client) :
    (ofExcept (trackUrl target track.media) : Handshake Str) client =
      .ok (camera.address track) client := by
  rw [trackUrl_media h]
  rfl

theorem header_setupRequest (url : Str) (auth : Option Str) (base : UInt8) (client : Client) :
    (setupRequest url auth base client).header "Authorization".toList = auth ∧
      (setupRequest url auth base client).header "Session".toList = client.session ∧
      (setupRequest url auth base client).header "Transport".toList = some (transport base).2 := by
  obtain ⟨cseq, session, past, current⟩ := client
  cases session <;> cases auth <;> exact ⟨rfl, rfl, rfl⟩

theorem interleavedBase_toNat {i : ℕ} (hi : i < 128) :
    (interleavedBase i).toNat = 2 * i ∧ (interleavedBase i + 1).toNat = 2 * i + 1 := by
  have hbase : (interleavedBase i).toNat = 2 * i := by
    rw [interleavedBase, if_pos (by omega), UInt8.toNat_ofNat']
    omega
  refine ⟨hbase, ?_⟩
  rw [UInt8.toNat_add, hbase]
  have hone : UInt8.toNat 1 = 1 := rfl
  omega

theorem value_transport (base : UInt8) :
    (transport base).2 = "RTP/AVP/TCP;unicast;interleaved=".toList ++
      (numeral base.toNat ++ '-' :: numeral (base + 1).toNat) :=
  (List.append_assoc _ _ _).trans (List.append_assoc _ _ _)

/-- A SETUP asks for the channel that it names. -/
theorem channel_setupRequest {i : ℕ} (hi : i < 128) (url : Str) (auth : Option Str)
    (client : Client) :
    (setupRequest url auth (interleavedBase i) client).channel = some (2 * i) := by
  obtain ⟨hfirst, hlast⟩ := interleavedBase_toNat hi
  have hdash : '-' ∉ numeral (2 * i) := by
    intro hmem
    have hdigit := isDigit_of_mem_numeral hmem
    revert hdigit
    decide
  have hvalue := value_transport (interleavedBase i)
  rw [hfirst, hlast] at hvalue
  rw [Request.channel, (header_setupRequest url auth _ client).2.2, hvalue, Option.bind_eq_bind,
    Option.bind_some, stripPrefix_append, Option.bind_eq_bind, Option.bind_some,
    splitOnce_char _ hdash, Option.bind_eq_bind, Option.bind_some]
  dsimp only
  rw [parseUnsigned_numeral (by omega), Option.bind_some, parseUnsigned_numeral (by omega),
    Option.bind_some, if_pos rfl]

theorem address_plain (h : Reaches env camera target) (track : Track) :
    OneLine (camera.address track) ∧ '\"' ∉ camera.address track := by
  have hquote : '\"' ∉ track.name :=
    fun hmem => (isTrackChar_plain (track.isTrackChar_name _ hmem)).2 (by decide)
  have hsep : OneLine (if ['/'].isSuffixOf camera.url then [] else ['/']) ∧
      '\"' ∉ if ['/'].isSuffixOf camera.url then [] else ['/'] := by
    split_ifs <;> decide
  constructor
  · exact ((h.url ▸ oneLine_rtspUrl h.clean).append hsep.1).append track.oneLine_name
  · intro hmem
    rcases List.mem_append.mp hmem with hmem | hmem
    · rcases List.mem_append.mp hmem with hmem | hmem
      · exact h.quote_url hmem
      · exact hsep.2 hmem
    · exact hquote hmem

/-- The client has what the camera asks of a SETUP on the connection `n`: no authorization, or the
challenge and the credentials of the user. -/
def Admits (camera : Camera) (target : Target) (n : ℕ) (challenge : Option Str) : Prop :=
  challenge = none ∧ camera.guardsSetup = false ∨
    challenge = some (camera.challengeText n) ∧ camera.knows target

/-- A SETUP with what is asked for is not refused for want of an authorization. -/
theorem trackAuthorization_admitted (h : Reaches env camera target) {challenge : Option Str}
    (hadmits : Admits camera target n challenge) (track : Track) (client : Client) :
    ∃ auth, trackAuthorization env target (camera.address track) challenge client =
        .ok auth client ∧ (∀ header, auth = some header → OneLine header) ∧
      ∀ base, ¬ (camera.guardsSetup = true ∧
        camera.authorizes n (setupRequest (camera.address track) auth base client) = false) := by
  rcases hadmits with ⟨rfl, hguard⟩ | ⟨rfl, hknows⟩
  · refine ⟨none, rfl, oneLine_none, fun base hrefused => ?_⟩
    rw [hguard] at hrefused
    cases hrefused.1
  · obtain ⟨hline, hquote⟩ := address_plain h track
    refine ⟨some (reply env camera target n client .setup (camera.address track)).text, ?_, ?_, ?_⟩
    · rw [trackAuthorization, map_eq_pure_bind]
      exact bind_of_ok (authorization_reply h .setup _)
    · rintro _ ⟨⟩
      exact oneLine_reply h client .setup hline
    · intro base hrefused
      have hauthorizes := authorizes_reply h n client hquote (header_setupRequest
        (camera.address track) (some (reply env camera target n client .setup
          (camera.address track)).text) base client).1
      rw [hauthorizes.mpr (reply_vouches hknows n client .setup _)] at hrefused
      cases hrefused.2

/-- The tracks that were set up so far, on the connection `n`. -/
structure Progress (camera : Camera) (n : ℕ) (tracks : List Track) (client : Client) : Prop where
  past : client.past.length = n
  session : client.session = if tracks = [] then none else some (camera.session n)
  granted : granted client.current = camera.allotted tracks

theorem NothingGranted.progress (h : NothingGranted n client) : Progress camera n [] client :=
  ⟨h.past, h.session, h.granted client.current List.mem_concat_self⟩

theorem oneLine_token {s : Str} (h : IsToken s) : OneLine s ∧ trim s = s := by
  constructor
  · intro hmem
    exact (isTokenChar_plain (h.isTokenChar hmem)).2 (by decide)
  · exact trim_eq_self fun c hc => (isTokenChar_plain (h.isTokenChar hc)).1

theorem Progress.oneLine {tracks : List Track} (h : Progress camera n tracks client) :
    ∀ session, client.session = some session → OneLine session := by
  intro session hsession
  rw [h.session] at hsession
  split_ifs at hsession
  obtain rfl := Option.some.inj hsession
  exact (oneLine_token (camera.isToken_session n)).1

/-- A SETUP of the next track is accepted. -/
theorem setup_next {tracks : List Track} (hclient : Progress camera n tracks client) {track : Track}
    (htrack : track ∈ camera.tracks) (hcount : tracks.length < 128) (auth : Option Str) :
    camera.setup n client.current
        (setupRequest (camera.address track) auth (interleavedBase tracks.length) client) =
      ⟨200, "Session: ".toList ++ camera.session n ++ "\r\n".toList, []⟩ := by
  have hurl : camera.address track ∈ camera.tracks.map camera.address :=
    List.mem_map_of_mem htrack
  have hnil : granted client.current = [] ↔ tracks = [] := by
    rw [hclient.granted, Camera.allotted, List.map_eq_nil_iff, List.zipIdx_eq_nil_iff]
  have hsession : (setupRequest (camera.address track) auth (interleavedBase tracks.length)
      client).header "Session".toList =
        if granted client.current = [] then none else some (camera.session n) := by
    rw [(header_setupRequest _ _ _ _).2.1, hclient.session]
    exact if_congr hnil.symm rfl rfl
  have hchannel : (setupRequest (camera.address track) auth (interleavedBase tracks.length)
      client).channel.any (· ∉ (granted client.current).map Prod.snd) = true := by
    rw [channel_setupRequest hcount, Option.any_some, decide_eq_true_eq, hclient.granted]
    intro hmem
    obtain ⟨_, hmem, heq⟩ := List.mem_map.mp hmem
    obtain ⟨⟨other, i⟩, hother, rfl⟩ := List.mem_map.mp hmem
    have hlt := (List.mem_zipIdx hother).2.1
    dsimp only at heq
    omega
  rw [Camera.setup]
  exact (if_neg (not_not.mpr hurl)).trans ((if_neg (not_not.mpr hsession)).trans (if_pos hchannel))

/-- **The next track** is set up. -/
theorem doSetupTrack_next (h : Reaches env camera target) {challenge : Option Str}
    (hadmits : Admits camera target n challenge) {tracks : List Track}
    (hclient : Progress camera n tracks client) {track : Track} (htrack : track ∈ camera.tracks)
    (hcount : tracks.length < 128) :
    ∃ client', Progress camera n (tracks ++ [track]) client' ∧
      doSetupTrack env target track.media (interleavedBase tracks.length) challenge client =
        .ok () client' := by
  obtain ⟨auth, hauth, hline, hrefused⟩ := trackAuthorization_admitted h hadmits track client
  have hanswer := roundTrip_answered h (setupRequest_clean (address_plain h track).1 hline
    (interleavedBase tracks.length) hclient.oneLine)
  have hrespond : camera.respond client.past.length client.current
      (setupRequest (camera.address track) auth (interleavedBase tracks.length) client) =
        ⟨200, "Session: ".toList ++ camera.session n ++ "\r\n".toList, []⟩ := by
    rw [hclient.past]
    exact (if_neg (hrefused _)).trans (setup_next hclient htrack hcount auth)
  have hname : ':' ∉ "Session".toList ∧ OneLine "Session".toList ∧
      trim "Session".toList = "Session".toList := by decide
  have hsession : extractHeader ("Session: ".toList ++ camera.session n ++ "\r\n".toList)
      "Session".toList = some (camera.session n) :=
    have htoken := oneLine_token (camera.isToken_session n)
    extractHeader_line hname.1 hname.2.1 hname.2.2 htoken.1 htoken.2
  rw [hrespond] at hanswer
  generalize hsent : client.sent _ _ = client₁ at hanswer
  refine ⟨{ client₁ with session := some (camera.session n) }, ?_, ?_⟩
  · subst hsent
    refine ⟨hclient.past, ?_, (granted_snoc _ _).trans ?_⟩
    · exact (if_neg (List.append_ne_nil_of_right_ne_nil _ (List.cons_ne_nil _ _))).symm
    · rw [hclient.granted, Camera.allotted, Camera.allotted, List.zipIdx_append, List.map_append]
      refine congrArg _ ?_
      rw [Exchange.grant, if_pos ⟨rfl, rfl⟩, channel_setupRequest hcount]
      simp [setupRequest]
  · refine (bind_of_ok (trackUrl_answered h track client)).trans ((bind_of_ok hauth).trans
      ((bind_of_ok hanswer).trans ?_))
    rw [if_neg (not_not.mpr rfl), storeSession, hsession]
    rfl

/-- **All tracks** are set up, in their order. -/
theorem setupAllTracks_admitted (h : Reaches env camera target) {challenge : Option Str}
    (hadmits : Admits camera target n challenge) (hcount : camera.tracks.length ≤ 128)
    (rest : List Track) {tracks : List Track} (htracks : tracks ++ rest = camera.tracks)
    {client : Client} (hclient : Progress camera n tracks client) :
    ∃ client', Progress camera n camera.tracks client' ∧
      setupAllTracks env target challenge tracks.length (rest.map Track.media) client =
        .ok () client' := by
  induction rest generalizing tracks client with
  | nil =>
    rw [List.append_nil] at htracks
    exact ⟨client, htracks ▸ hclient, rfl⟩
  | cons track rest ih =>
    have hmem : track ∈ camera.tracks := htracks ▸ List.mem_append_right _ List.mem_cons_self
    have hlt : tracks.length < 128 := by
      have hlength := congrArg List.length htracks
      rw [List.length_append, List.length_cons] at hlength
      omega
    obtain ⟨client₁, hclient₁, hnext⟩ := doSetupTrack_next h hadmits hclient hmem hlt
    obtain ⟨client', hclient', hrest⟩ := ih (by rw [← htracks]; simp) hclient₁
    refine ⟨client', hclient', (bind_of_ok hnext).trans ?_⟩
    rw [List.length_append, List.length_singleton] at hrest
    exact hrest

/-- A request without an authorization is refused where one is asked for. -/
theorem not_authorizes (camera : Camera) (n : ℕ) {request : Request}
    (h : request.header "Authorization".toList = none) : camera.authorizes n request = false := by
  rw [Camera.authorizes, h]
  rfl

/-- The client has no authorization, or that of another user. -/
def Excludes (env : Environment) (camera : Camera) (target : Target) (n : ℕ)
    (challenge : Option Str) : Prop :=
  challenge = none ∨ challenge = some (camera.challengeText n) ∧ n ≤ 1 ∧
    Separates env camera target ∧ ¬ camera.knows target

/-- **A SETUP without the authorization** that is asked for fails. -/
theorem doSetupTrack_refused (h : Reaches env camera target) (hclient : NothingGranted n client)
    (hguard : camera.guardsSetup = true) {challenge : Option Str}
    (hexcludes : Excludes env camera target n challenge) {track : Track}
    (htrack : track ∈ camera.tracks) (base : UInt8) :
    ∃ client', NothingGranted n client' ∧
      doSetupTrack env target track.media base challenge client = .error .failed client' := by
  obtain ⟨hline, hquote⟩ := address_plain h track
  obtain ⟨auth, hauth, hauthLine, hno⟩ : ∃ auth,
      trackAuthorization env target (camera.address track) challenge client = .ok auth client ∧
      (∀ header, auth = some header → OneLine header) ∧
      camera.authorizes n (setupRequest (camera.address track) auth base client) = false := by
    rcases hexcludes with rfl | ⟨rfl, hn, hseparates, hknows⟩
    · exact ⟨none, rfl, oneLine_none, not_authorizes camera n (header_setupRequest _ _ _ _).1⟩
    · refine ⟨some (reply env camera target n client .setup (camera.address track)).text, ?_, ?_, ?_⟩
      · rw [trackAuthorization, map_eq_pure_bind]
        exact bind_of_ok (authorization_reply h .setup _)
      · rintro _ ⟨⟩
        exact oneLine_reply h client .setup hline
      · have hauthorizes := authorizes_reply h n client hquote (header_setupRequest
          (camera.address track) (some (reply env camera target n client .setup
            (camera.address track)).text) base client).1
        exact Bool.eq_false_iff.mpr fun hyes =>
          reply_not_vouches hseparates hknows hn client .setup
            (List.mem_cons_of_mem _ (List.mem_map_of_mem htrack)) (hauthorizes.mp hyes)
  have hsession : ∀ session, client.session = some session → OneLine session := by
    rw [hclient.session]
    exact oneLine_none
  have hanswer := roundTrip_answered h (setupRequest_clean hline hauthLine base hsession)
  have hrespond : camera.respond client.past.length client.current
      (setupRequest (camera.address track) auth base client) = camera.unauthorized n := by
    rw [hclient.past]
    exact if_pos ⟨hguard, hno⟩
  have hstatus := (statusCode_unauthorized camera n).1
  have hnothing : NothingGranted n (client.sent (setupRequest (camera.address track) auth base client)
      (some (camera.unauthorized n))) := hclient.sent (grant_of_status hstatus)
  rw [hrespond] at hanswer
  refine ⟨_, hnothing, ?_⟩
  refine (bind_of_ok (trackUrl_answered h track client)).trans ((bind_of_ok hauth).trans
    ((bind_of_ok hanswer).trans ?_))
  rw [if_pos hstatus]
  rfl

/-- A challenge is fetched on the connection on which it is answered. -/
theorem fetchSetupChallenge_answered (h : Reaches env camera target)
    (hclient : NothingGranted n client) (hguard : camera.guardsSetup = true) (track : Track)
    (rest : List Track) :
    ∃ client', NothingGranted n client' ∧
      fetchSetupChallenge env target ((track :: rest).map Track.media) client =
        .ok (camera.challengeText n) client' := by
  have hclean : (challengeRequest (camera.address track) client).Clean := by
    refine ⟨(address_plain h track).1, fun header hmem => ?_⟩
    rw [List.mem_singleton.mp hmem]
    exact cleanHeader_transport 0
  have hanswer := roundTrip_answered h hclean
  have hrespond : camera.respond client.past.length client.current
      (challengeRequest (camera.address track) client) = camera.unauthorized n := by
    rw [hclient.past]
    exact if_pos ⟨hguard, not_authorizes camera n rfl⟩
  have hstatus := statusCode_unauthorized camera n
  have hnothing : NothingGranted n (client.sent (challengeRequest (camera.address track) client)
      (some (camera.unauthorized n))) := hclient.sent (grant_of_status hstatus.1)
  rw [hrespond] at hanswer
  refine ⟨_, hnothing, (bind_of_ok rfl).trans
    ((bind_of_ok (trackUrl_answered h track client)).trans ((bind_of_ok hanswer).trans ?_))⟩
  rw [if_neg hstatus.2, extractHeader_unauthorized]
  rfl

/-- All tracks are set up, on a second connection where an authorization is asked for. -/
theorem setupAll_known (h : Reaches env camera target) (hclient : NothingGranted n client)
    (htracks : camera.tracks ≠ []) (hcount : camera.tracks.length ≤ 128)
    (hknows : camera.guardsSetup = true → camera.knows target) :
    ∃ client', Progress camera (if camera.guardsSetup then n + 1 else n) camera.tracks client' ∧
      setupAll env target (camera.tracks.map Track.media) client = .ok () client' := by
  cases hguard : camera.guardsSetup with
  | false =>
    obtain ⟨client', hclient', hsetup⟩ := setupAllTracks_admitted h (.inl ⟨rfl, hguard⟩) hcount
      camera.tracks (List.nil_append _) hclient.progress
    exact ⟨client', hclient', bind_of_ok (attempt_of_ok hsetup)⟩
  | true =>
    obtain ⟨track, rest, hcons⟩ := List.exists_cons_of_ne_nil htracks
    have htrack : track ∈ camera.tracks := hcons ▸ List.mem_cons_self
    obtain ⟨client₁, hclient₁, hfirst⟩ := doSetupTrack_refused h hclient hguard (.inl rfl) htrack
      (interleavedBase 0)
    obtain ⟨client₂, hclient₂, hfetch⟩ := fetchSetupChallenge_answered h hclient₁.reconnected hguard
      track rest
    obtain ⟨client', hclient', hsetup⟩ := setupAllTracks_admitted h
      (.inr ⟨rfl, hknows hguard⟩) hcount camera.tracks (List.nil_append _) hclient₂.progress
    have htry : setupAllTracks env target none 0 (camera.tracks.map Track.media) client =
        .error .failed client₁ := by
      rw [hcons]
      exact bind_of_error hfirst
    rw [← hcons] at hfetch
    refine ⟨client', hclient', (bind_of_ok (attempt_of_error htry rfl)).trans ?_⟩
    exact (bind_of_ok (reconnect_reaches h client₁)).trans ((bind_of_ok hfetch).trans hsetup)

/-- Without the credentials that are asked for, SETUP fails. -/
theorem setupAll_unknown (h : Reaches env camera target) (hclient : NothingGranted 0 client)
    (htracks : camera.tracks ≠ []) (hguard : camera.guardsSetup = true)
    (hseparates : Separates env camera target) (hknows : ¬ camera.knows target) :
    ∃ client', NothingGranted 1 client' ∧
      setupAll env target (camera.tracks.map Track.media) client = .error .failed client' := by
  obtain ⟨track, rest, hcons⟩ := List.exists_cons_of_ne_nil htracks
  have htrack : track ∈ camera.tracks := hcons ▸ List.mem_cons_self
  obtain ⟨client₁, hclient₁, hfirst⟩ := doSetupTrack_refused h hclient hguard (.inl rfl) htrack
    (interleavedBase 0)
  obtain ⟨client₂, hclient₂, hfetch⟩ := fetchSetupChallenge_answered h hclient₁.reconnected hguard
    track rest
  obtain ⟨client', hclient', hsecond⟩ := doSetupTrack_refused h hclient₂ hguard
    (.inr ⟨rfl, le_rfl, hseparates, hknows⟩) htrack (interleavedBase 0)
  have htry : setupAllTracks env target none 0 (camera.tracks.map Track.media) client =
      .error .failed client₁ := by
    rw [hcons]
    exact bind_of_error hfirst
  rw [← hcons] at hfetch
  refine ⟨client', hclient', (bind_of_ok (attempt_of_error htry rfl)).trans ?_⟩
  refine (bind_of_ok (reconnect_reaches h client₁)).trans ((bind_of_ok hfetch).trans ?_)
  rw [hcons]
  exact bind_of_error hsecond

/-! ## The handshake -/

/-- What was set up is played. -/
theorem play_answered (h : Reaches env camera target) {tracks : List Track}
    (hclient : Progress camera n tracks client) (htracks : tracks ≠ []) :
    play env target client =
      .ok () (client.sent (playRequest target client) (some ⟨200, [], []⟩)) := by
  have hanswer := roundTrip_answered h (playRequest_clean h.clean hclient.oneLine)
  have hsession : (playRequest target client).header "Session".toList =
      some (camera.session n) := by
    have hclientSession := hclient.session
    rw [if_neg htracks] at hclientSession
    obtain ⟨cseq, session, past, current⟩ := client
    dsimp only at hclientSession
    subst hclientSession
    rfl
  have hgranted : granted client.current ≠ [] := by
    rw [hclient.granted, Camera.allotted, ne_eq, List.map_eq_nil_iff, List.zipIdx_eq_nil_iff]
    exact htracks
  have hrespond : camera.respond client.past.length client.current (playRequest target client) =
      ⟨200, [], []⟩ := by
    rw [hclient.past]
    exact if_pos ⟨hgranted, hsession⟩
  rw [hrespond] at hanswer
  exact bind_of_ok hanswer

/-- **The handshake succeeds** with a camera that needs no credentials, or with the credentials of its
user. The connection is the first one, or the second one where SETUP asks for an authorization. On it
every track was set up in the session of the connection, the `i`-th one on the channels `2 * i` and
`2 * i + 1`, and they are played. -/
theorem connect_served (h : Reaches env camera target) (htracks : camera.tracks ≠ [])
    (hcount : camera.tracks.length ≤ 128)
    (hknows : camera.guardsDescribe = true ∨ camera.guardsSetup = true → camera.knows target) :
    ∃ client before request, connect env target Client.initial = .ok () client ∧
      client.past.length = (if camera.guardsSetup then 1 else 0) ∧
      client.session = some (camera.session client.past.length) ∧
      granted client.current = camera.allotted camera.tracks ∧
      client.current = before ++ [⟨request, some ⟨200, [], []⟩⟩] ∧ request.method = .play := by
  have haccept : accept env Client.initial = .ok () Client.initial := by
    rw [accept, h.accepts]
  obtain ⟨client₁, hclient₁, hoptions⟩ := options_answered h NothingGranted.initial
  obtain ⟨client₂, hclient₂, hdescribe⟩ := describe_known h hclient₁ htracks
    fun hguard => hknows (.inl hguard)
  obtain ⟨client₃, hclient₃, hsetup⟩ := setupAll_known h hclient₂ htracks hcount
    fun hguard => hknows (.inr hguard)
  refine ⟨_, client₃.current, playRequest target client₃, (bind_of_ok haccept).trans
    ((bind_of_ok hoptions).trans ((bind_of_ok hdescribe).trans ((bind_of_ok hsetup).trans
      (play_answered h hclient₃ htracks)))), ?_, ?_, ?_, rfl, rfl⟩
  · exact hclient₃.past
  · exact hclient₃.session.trans ((if_neg htracks).trans (congrArg _
      (congrArg camera.session hclient₃.past.symm)))
  · refine (granted_snoc _ _).trans ?_
    rw [hclient₃.granted, grant_of_method (by rintro ⟨⟩)]
    exact List.append_nil _

/-- A hash without collisions: every character is written with as many ones as its number. -/
def unaryHash (s : Str) : Str := s.flatMap fun c => List.replicate c.toNat '1' ++ ['0']

theorem mem_unaryHash {s : Str} {c : Char} (h : c ∈ unaryHash s) : c = '1' ∨ c = '0' := by
  obtain ⟨d, -, hc⟩ := List.mem_flatMap.mp h
  rcases List.mem_append.mp hc with hc | hc
  · exact .inl (List.eq_of_mem_replicate hc)
  · exact .inr (List.mem_singleton.mp hc)

theorem not_mem_unaryHash {c : Char} (h : c ≠ '1' ∧ c ≠ '0') (s : Str) : c ∉ unaryHash s :=
  fun hmem => (mem_unaryHash hmem).elim h.1 h.2

/-- A camera that asks for an authorization of DESCRIBE and SETUP, with a picture and a sound. -/
def sampleCamera : Camera where
  url := rtspUrl sampleTarget
  account := ⟨"admin".toList, "secret".toList, "IPCAM".toList⟩
  nonce _ := "1f".toList
  session _ := "7".toList
  qop := true
  guardsDescribe := true
  guardsSetup := true
  tracks := [⟨.video, 96, "track1".toList, List.cons_ne_nil _ _, forall_of_all rfl⟩,
    ⟨.audio, 0, "track2".toList, List.cons_ne_nil _ _, forall_of_all rfl⟩]
  md5Hex := unaryHash
  isQuotable_realm := forall_of_all rfl
  isQuotable_nonce _ := forall_of_all rfl
  isToken_session _ := ⟨List.cons_ne_nil _ _, rfl⟩

def sampleCameraEnvironment : Environment where
  accepts _ := .ok ()
  answer past current text := .ok (sampleCamera.answer past.length current text)
  generateCnonce _ _ := "c0ffee".toList
  md5Hex := unaryHash
  toLowercase := asciiLower

theorem reaches_sampleCamera (pwd : Str) :
    Reaches sampleCameraEnvironment sampleCamera { sampleTarget with pwd := pwd } := by
  have hcnonce : OneLine "c0ffee".toList ∧ '\"' ∉ "c0ffee".toList := by decide
  have hurl : '\"' ∉ rtspUrl sampleTarget := by decide +kernel
  have hsigns : ('\n' ≠ '1' ∧ '\n' ≠ '0') ∧ '\"' ≠ '1' ∧ '\"' ≠ '0' := by decide
  have htarget : OneLine sampleTarget.host ∧ OneLine sampleTarget.path ∧
      OneLine sampleTarget.user ∧ '\"' ∉ sampleTarget.user := by decide
  exact {
    accepts := fun _ => rfl
    answer := fun _ _ _ => rfl
    md5Hex := rfl
    toLowercase := lowers_asciiLower
    url := rfl
    clean := ⟨htarget.1, htarget.2.1, htarget.2.2.1, not_mem_unaryHash hsigns.1,
      fun _ _ => hcnonce.1⟩
    quote_url := hurl
    quote_user := htarget.2.2.2
    quote_md5Hex := not_mem_unaryHash hsigns.2
    quote_cnonce := fun _ _ => hcnonce.2 }

/-- The picture is played on the channels 0 and 1, and the sound on 2 and 3. -/
theorem connect_served_sample :
    ∃ client before request,
      connect sampleCameraEnvironment sampleTarget Client.initial = .ok () client ∧
        client.past.length = 1 ∧ client.session = some "7".toList ∧
        granted client.current = [("rtsp://10.0.0.7:554/videoMain/track1".toList, 0),
          ("rtsp://10.0.0.7:554/videoMain/track2".toList, 2)] ∧
        client.current = before ++ [⟨request, some ⟨200, [], []⟩⟩] ∧ request.method = .play := by
  have hallotted : sampleCamera.allotted sampleCamera.tracks =
      [("rtsp://10.0.0.7:554/videoMain/track1".toList, 0),
        ("rtsp://10.0.0.7:554/videoMain/track2".toList, 2)] := by decide +kernel
  have hserved := connect_served (reaches_sampleCamera "secret".toList) (List.cons_ne_nil _ _)
    (by decide) fun _ => ⟨rfl, rfl⟩
  rw [hallotted] at hserved
  exact hserved

/-- **The handshake fails** with other credentials where some are asked for, and nothing is set up on
any connection, if the hash tells the passwords apart. -/
theorem connect_refused (h : Reaches env camera target) (htracks : camera.tracks ≠ [])
    (hguard : camera.guardsDescribe = true ∨ camera.guardsSetup = true)
    (hseparates : Separates env camera target) (hknows : ¬ camera.knows target) :
    ∃ client, connect env target Client.initial = .error .failed client ∧
      client.session = none ∧ ∀ dialogue ∈ client.dialogues, granted dialogue = [] := by
  have haccept : accept env Client.initial = .ok () Client.initial := by
    rw [accept, h.accepts]
  obtain ⟨client₁, hclient₁, hoptions⟩ := options_answered h NothingGranted.initial
  cases hdescribe : camera.guardsDescribe with
  | true =>
    obtain ⟨client, hclient, hfail⟩ := describe_unknown h hclient₁ htracks hdescribe hseparates hknows
    exact ⟨client, (bind_of_ok haccept).trans ((bind_of_ok hoptions).trans (bind_of_error hfail)),
      hclient.session, hclient.granted⟩
  | false =>
    have hsetup : camera.guardsSetup = true := by
      rcases hguard with hguard | hguard
      · cases hdescribe.symm.trans hguard
      · exact hguard
    obtain ⟨client₂, hclient₂, htry⟩ := tryDescribe_open h hclient₁ hdescribe htracks
    obtain ⟨client, hclient, hfail⟩ := setupAll_unknown h hclient₂ htracks hsetup hseparates hknows
    have hdescribed : describe env target client₁ =
        .ok (camera.tracks.map Track.media) client₂ := bind_of_ok (attempt_of_ok htry)
    exact ⟨client, (bind_of_ok haccept).trans ((bind_of_ok hoptions).trans
      ((bind_of_ok hdescribed).trans (bind_of_error hfail))), hclient.session, hclient.granted⟩

theorem unaryHash_cons (c : Char) (s : Str) :
    unaryHash (c :: s) = List.replicate c.toNat '1' ++ '0' :: unaryHash s := by
  rw [unaryHash, List.flatMap_cons, List.append_assoc, unaryHash]
  rfl

theorem unaryHash_injective : Function.Injective unaryHash := by
  have hone : ∀ n, '0' ∉ List.replicate n '1' :=
    fun n hmem => absurd (List.eq_of_mem_replicate hmem) (by decide)
  intro s t h
  induction s generalizing t with
  | nil =>
    cases t with
    | nil => rfl
    | cons d t =>
      rw [unaryHash_cons] at h
      cases (List.append_eq_nil_iff.mp h.symm).2
  | cons c s ih =>
    cases t with
    | nil =>
      rw [unaryHash_cons] at h
      cases (List.append_eq_nil_iff.mp h).2
    | cons d t =>
      -- both texts begin with the ones of their first character
      rw [unaryHash_cons, unaryHash_cons] at h
      have hparts := congrArg (splitOnce ['0']) h
      rw [splitOnce_char _ (hone _), splitOnce_char _ (hone _)] at hparts
      obtain ⟨hfirst, hrest⟩ := Prod.mk.inj (Option.some.inj hparts)
      have hlength := congrArg List.length hfirst
      rw [List.length_replicate, List.length_replicate] at hlength
      rw [Char.toNat_inj.mp hlength, ih hrest]

/-- A guessed password. -/
theorem connect_refused_guess :
    ∃ client, connect sampleCameraEnvironment { sampleTarget with pwd := "guess".toList }
        Client.initial = .error .failed client ∧
      client.session = none ∧ ∀ dialogue ∈ client.dialogues, granted dialogue = [] := by
  refine connect_refused (reaches_sampleCamera "guess".toList) (List.cons_ne_nil _ _) (.inl rfl)
    (fun _ _ _ _ _ _ => unaryHash_injective.injOn) fun hknows => ?_
  have hne : "guess".toList ≠ "secret".toList := by decide
  exact hne hknows.2

end RtspClient

end Fosipcore
