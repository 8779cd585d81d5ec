import Fosipcore.Video.Handshake

/-!
# Established sessions

A client that is connected should have a session: the camera has described its media sections, and
has accepted a SETUP of each of them, and PLAY, on the connection that the packets are read from.

The client checks the status of DESCRIBE and of SETUP, through all of the attempts at them, but not
that of PLAY. So a connected client has everything but a PLAY that was accepted.

## Main definitions

* `Described`, `SetUp`, `Prepared`: what DESCRIBE and SETUP should have brought about
* `Established`: the session of a connected client

## Main results

* `setupAllTracks_prepared`: each SETUP is accepted, in the order of the sections
* `beforePlay_prepared`: what has happened when PLAY is sent
* `connect_established_iff`: the session is established if and only if the camera accepts PLAY
-/

namespace Fosipcore

namespace RtspClient

open Text Fallible

/-- The response had the status 200. -/
def Exchange.Accepted (e : Exchange) : Prop :=
  ∃ response, e.response = some response ∧ response.statusCode = 200

/-- The exchanges on all connections. -/
def Client.log (client : Client) : Dialogue := client.dialogues.flatten

/-- A DESCRIBE was accepted, with these media sections. -/
def Described (media : List SdpMedia) (client : Client) : Prop :=
  ∃ e ∈ client.log, e.request.method = .describe ∧ ∃ response, e.response = some response ∧
    response.statusCode = 200 ∧ parseSdpMedia response.body = some media

/-- A SETUP of the media section was accepted. -/
def SetUp (target : Target) (m : SdpMedia) (e : Exchange) : Prop :=
  e.request.method = .setup ∧ trackUrl target m = .ok e.request.url ∧ e.Accepted

/-- The last exchanges on this connection set up the sections that were described, in their order. -/
def Prepared (target : Target) (client : Client) : Prop :=
  ∃ media start setups, Described media client ∧ client.current = start ++ setups ∧
    List.Forall₂ (SetUp target) media setups

/-- The sections that were described are set up, and PLAY is accepted, on this connection. -/
def Established (target : Target) (client : Client) : Prop :=
  ∃ media start setups e, Described media client ∧ client.current = start ++ setups ++ [e] ∧
    List.Forall₂ (SetUp target) media setups ∧ e.request.method = .play ∧ e.Accepted

variable {env : Environment} {target : Target}

/-! ## The log -/

theorem Client.log_sent (client : Client) (request : Request) (response : Option Response) :
    (client.sent request response).log = client.log ++ [⟨request, response⟩] := by
  simp [Client.log, Client.dialogues, Client.sent]

theorem Client.log_reconnected (client : Client) : client.reconnected.log = client.log := by
  simp [Client.log, Client.dialogues, Client.reconnected]

theorem Described.sent {media : List SdpMedia} {client : Client} (request : Request)
    (response : Option Response) (h : Described media client) :
    Described media (client.sent request response) := by
  obtain ⟨e, he, hdescribe⟩ := h
  rw [Described, Client.log_sent]
  exact ⟨e, List.mem_append_left _ he, hdescribe⟩

theorem Described.reconnected {media : List SdpMedia} {client : Client}
    (h : Described media client) : Described media client.reconnected := by
  rwa [Described, Client.log_reconnected]

/-! ## DESCRIBE -/

/-- The response to a DESCRIBE. -/
def DescribeResponse (response : Response) (client : Client) : Prop :=
  ∃ e ∈ client.log, e.request.method = .describe ∧ e.response = some response

theorem describeRequest_response {P : Client → Prop} (auth : Option Str) :
    Triple P (roundTrip env (describeRequest target auth)) DescribeResponse fun _ _ => True := by
  refine (roundTrip_triple _).returns ?_
  rintro response _ ⟨client, -, -, rfl⟩
  rw [DescribeResponse, Client.log_sent]
  exact ⟨_, List.mem_concat_self, rfl, rfl⟩

theorem parse_described {response : Response} (hstatus : response.statusCode = 200) :
    Triple (DescribeResponse response) (orFail (parseSdpMedia response.body)) Described
      fun _ _ => True := by
  refine (orFail_triple _).returns ?_
  rintro media client ⟨hparse, e, he, hmethod, hresponse⟩
  exact ⟨e, he, hmethod, response, hresponse, hstatus, hparse⟩

theorem failed_described {P : Client → Prop} :
    Triple P (throw .failed : Handshake (List SdpMedia)) Described fun _ _ => True :=
  (Triple.throw _).pre fun _ _ => trivial

theorem tryDescribe_described {P : Client → Prop} :
    Triple P (tryDescribe env target) Described fun _ _ => True := by
  refine .bind (describeRequest_response none) fun response => ?_
  split_ifs with hok
  · exact parse_described hok
  · exact failed_described

theorem digestDescribe_described {P : Client → Prop} :
    Triple P (digestDescribe env target) Described fun _ _ => True := by
  refine .bind (describeRequest_response none) fun response => ?_
  split_ifs with hok
  · exact parse_described hok
  · exact failed_described
  · -- the response to the authorized request counts
    refine .bind ((orFail_keeps _).returns fun _ _ => id) fun wwwAuth => ?_
    refine .bind ((authorization_triple _ _ wwwAuth).returns fun _ _ => id) fun auth => ?_
    refine .bind (describeRequest_response (some auth)) fun response => ?_
    split_ifs with hok
    · exact parse_described hok
    · exact failed_described

/-- **DESCRIBE**, through all of the attempts. -/
theorem describe_described {P : Client → Prop} :
    Triple P (describe env target) Described fun _ _ => True := by
  refine tryDescribe_described.attempt_bind (fun media => .pure media) (fun _ _ => ?_)
    fun _ _ _ => id
  refine digestDescribe_described.attempt_bind (fun media => .pure media) (fun _ _ => ?_)
    fun _ _ _ => id
  exact .bind (reconnect_triple.returns fun _ _ => id) fun _ => digestDescribe_described

/-! ## SETUP -/

variable {media : List SdpMedia}

theorem roundTrip_described (request : Client → Request) :
    Keeps (Described media) (roundTrip env request) := by
  refine (roundTrip_triple request).weaken ?_ ?_
  · rintro response _ ⟨client, h, -, rfl⟩
    exact h.sent _ _
  · rintro failure _ ⟨client, h, rfl⟩
    exact h.sent _ _

theorem reconnect_described : Keeps (Described media) (reconnect env) := by
  refine reconnect_triple.post ?_
  rintro _ _ ⟨client, h, rfl⟩
  exact h.reconnected

theorem fetchSetupChallenge_described (sections : List SdpMedia) :
    Keeps (Described media) (fetchSetupChallenge env target sections) := by
  refine .bind (orFail_keeps sections.head?) fun first => ?_
  refine .bind (ofExcept_keeps (trackUrl target first)) fun url => ?_
  refine .bind (roundTrip_described _) fun response => ?_
  split_ifs
  · exact .throw _
  · exact orFail_keeps _

theorem trackAuthorization_described {P : Client → Prop} (url : Str) (challenge : Option Str) :
    Keeps P (trackAuthorization env target url challenge) := by
  cases challenge with
  | none => exact .pure _
  -- an authorization is computed, and nothing is sent
  | some wwwAuth =>
    rw [trackAuthorization, map_eq_pure_bind]
    refine .bind ((authorization_triple _ _ _).post fun _ _ h => h.2) fun header => .pure _

/-- The dialogue on this connection, after the sections that were described. -/
def At (media : List SdpMedia) (dialogue : Dialogue) (client : Client) : Prop :=
  Described media client ∧ client.current = dialogue

/-- A response was read to a SETUP of the media section. -/
def Tried (target : Target) (media : List SdpMedia) (m : SdpMedia) (dialogue : Dialogue)
    (response : Response) (client : Client) : Prop :=
  ∃ e, e.request.method = .setup ∧ trackUrl target m = .ok e.request.url ∧
    e.response = some response ∧ At media (dialogue ++ [e]) client

theorem Tried.described {m : SdpMedia} {dialogue : Dialogue} {response : Response}
    {client : Client} (h : Tried target media m dialogue response client) :
    Described media client := by
  obtain ⟨e, -, -, -, hat⟩ := h
  exact hat.1

theorem setupRequest_setUp {m : SdpMedia} {url : Str} {auth : Option Str}
    (interleavedBase : UInt8) (hurl : trackUrl target m = .ok url) (dialogue : Dialogue) :
    Triple (At media dialogue) (roundTrip env (setupRequest url auth interleavedBase))
      (Tried target media m dialogue) fun _ => Described media := by
  refine (roundTrip_triple _).weaken ?_ ?_
  · rintro response _ ⟨client, ⟨h, rfl⟩, -, rfl⟩
    exact ⟨_, rfl, hurl, rfl, h.sent _ _, rfl⟩
  · rintro failure _ ⟨client, ⟨h, -⟩, rfl⟩
    exact h.sent _ _

/-- **One SETUP** that returns was accepted. -/
theorem doSetupTrack_setUp (m : SdpMedia) (interleavedBase : UInt8) (challenge : Option Str)
    (dialogue : Dialogue) :
    Triple (At media dialogue) (doSetupTrack env target m interleavedBase challenge)
      (fun _ client => ∃ e, SetUp target m e ∧ At media (dialogue ++ [e]) client)
      fun _ => Described media := by
  refine .bind ((ofExcept_triple _).fails fun _ _ h => h.1) fun url => .of_pre fun hurl => ?_
  refine .bind (Triple.fails (trackAuthorization_described url challenge) fun _ _ h => h.1)
    fun auth => ?_
  refine .bind (setupRequest_setUp interleavedBase hurl dialogue) fun response => ?_
  split_ifs with hok
  · exact (Triple.throw _).pre fun _ h => h.described
  · refine (storeSession_triple _).weaken ?_ fun _ _ h => h.described
    rintro _ _ ⟨client, session, ⟨e, hmethod, htrack, hresponse, hat⟩, rfl⟩
    exact ⟨e, ⟨hmethod, htrack, response, hresponse, not_not.mp hok⟩, hat⟩

/-- **The sections are set up in their order.** -/
theorem setupAllTracks_setUp (challenge : Option Str) (sections : List SdpMedia) (i : ℕ)
    (dialogue : Dialogue) :
    Triple (At media dialogue) (setupAllTracks env target challenge i sections)
      (fun _ client => ∃ setups, List.Forall₂ (SetUp target) sections setups ∧
        At media (dialogue ++ setups) client)
      fun _ => Described media := by
  induction sections generalizing i dialogue with
  | nil =>
    intro client h
    refine ⟨[], .nil, ?_⟩
    rwa [List.append_nil]
  | cons m sections ih =>
    refine .bind (doSetupTrack_setUp m _ challenge dialogue) fun _ => ?_
    rintro client ⟨e, he, hat⟩
    refine Triple.post (ih (i + 1) (dialogue ++ [e])) ?_ client hat
    rintro _ client' ⟨setups, hsetups, hat'⟩
    refine ⟨e :: setups, .cons he hsetups, ?_⟩
    rwa [List.append_cons]

theorem Prepared.of_at {dialogue setups : Dialogue} {client : Client}
    (hsetups : List.Forall₂ (SetUp target) media setups)
    (h : At media (dialogue ++ setups) client) : Prepared target client :=
  ⟨media, dialogue, setups, h.1, h.2, hsetups⟩

theorem setupAllTracks_prepared (challenge : Option Str) :
    Triple (Described media) (setupAllTracks env target challenge 0 media)
      (fun _ => Prepared target) fun _ => Described media := by
  intro client h
  refine Triple.post (setupAllTracks_setUp challenge media 0 client.current) ?_ client ⟨h, rfl⟩
  rintro _ client' ⟨setups, hsetups, hat⟩
  exact .of_at hsetups hat

/-- **SETUP**, through both of the attempts. -/
theorem setupAll_prepared :
    Triple (Described media) (setupAll env target media) (fun _ => Prepared target)
      fun _ => Described media := by
  refine (setupAllTracks_prepared none).attempt_bind (fun _ => ?_) (fun _ _ => ?_)
    fun _ _ _ => id
  · intro client h
    exact h
  -- the exchanges of the first attempt are on the connection before
  · refine .bind reconnect_described fun _ => ?_
    exact .bind (fetchSetupChallenge_described media) fun wwwAuth =>
      setupAllTracks_prepared (some wwwAuth)

/-! ## PLAY -/

/-- The handshake up to PLAY. -/
def beforePlay (env : Environment) (target : Target) : Handshake Unit := do
  accept env
  options env target
  let media ← describe env target
  setupAll env target media

/-- **When PLAY is sent**, the sections are set up on the connection. -/
theorem beforePlay_prepared :
    Triple (fun _ => True) (beforePlay env target) (fun _ => Prepared target)
      fun _ _ => True := by
  refine .bind accept_triple fun _ => ?_
  refine .bind (Q := fun _ _ => True) ?_ fun _ => ?_
  · exact .bind ((roundTrip_triple _).returns fun _ _ _ => trivial) fun _ _ _ => trivial
  · exact .bind describe_described fun media => setupAll_prepared.returns fun _ _ => id

theorem play_eq {client client' : Client} :
    play env target client = .ok () client' ↔ ∃ response,
      env.answer client.past client.current (playRequest target client).text = .ok response ∧
        client' = client.sent (playRequest target client) (some response) := by
  simp only [play, roundTrip, bind, EStateM.bind, pure, EStateM.pure]
  cases env.answer client.past client.current (playRequest target client).text with
  | ok response => simp [eq_comm]
  | error failure => simp

theorem connect_eq {client' : Client} :
    connect env target .initial = .ok () client' ↔ ∃ client,
      beforePlay env target .initial = .ok () client ∧ play env target client = .ok () client' := by
  have hconnect : connect env target = beforePlay env target >>= fun _ => play env target := by
    simp only [connect, handshake, beforePlay, bind_assoc]
  rw [hconnect]
  simp only [bind, EStateM.bind]
  cases beforePlay env target .initial with
  | ok _ client => simp
  | error failure client => simp

/-- With PLAY, the session is established when it was accepted. -/
theorem Prepared.established_iff {client : Client} {response : Response}
    (h : Prepared target client) :
    Established target (client.sent (playRequest target client) (some response)) ↔
      response.statusCode = 200 := by
  constructor
  · rintro ⟨media, start, setups, e, -, hcurrent, -, -, response', hresponse, hok⟩
    obtain ⟨-, he⟩ := List.append_inj' hcurrent rfl
    obtain rfl := List.singleton_inj.mp he
    obtain rfl := Option.some.inj hresponse
    exact hok
  · intro hok
    obtain ⟨media, start, setups, hdescribed, hcurrent, hsetups⟩ := h
    refine ⟨media, start, setups, ⟨playRequest target client, some response⟩,
      hdescribed.sent _ _, ?_, hsetups, rfl, response, rfl, hok⟩
    rw [← hcurrent]
    rfl

/-- **A connected client has an established session if and only if PLAY is accepted**: a DESCRIBE was
answered with 200, and every section that it listed was set up with a response 200, in the order of
the sections and on the last connection. What the client does not check is the status of the
response to PLAY. -/
theorem connect_established_iff (env : Environment) (target : Target) :
    (∀ client, connect env target .initial = .ok () client → Established target client) ↔
      ∀ client, beforePlay env target .initial = .ok () client → ∀ response,
        env.answer client.past client.current (playRequest target client).text = .ok response →
          response.statusCode = 200 := by
  constructor
  · intro h client hbefore response hanswer
    have hprepared := beforePlay_prepared.ok trivial hbefore
    apply hprepared.established_iff.mp
    exact h _ (connect_eq.mpr ⟨client, hbefore, play_eq.mpr ⟨response, hanswer, rfl⟩⟩)
  · intro h client' hconnect
    obtain ⟨client, hbefore, hplay⟩ := connect_eq.mp hconnect
    obtain ⟨response, hanswer, rfl⟩ := play_eq.mp hplay
    have hprepared := beforePlay_prepared.ok trivial hbefore
    exact hprepared.established_iff.mpr (h client hbefore response hanswer)

/-- The last exchange of an established session was accepted. -/
theorem Established.getLast {client : Client} (response : Response)
    (h : Established target client)
    (hlast : client.current.getLast?.bind Exchange.response = some response) :
    response.statusCode = 200 := by
  obtain ⟨media, start, setups, e, -, hcurrent, -, -, response', hresponse, hok⟩ := h
  rw [hcurrent, List.getLast?_concat, Option.bind_some, hresponse] at hlast
  rwa [← Option.some.inj hlast]

/-- A camera that has a video section, and does not know the session when it is told to play. -/
def forgetfulCamera : Environment where
  accepts _ := .ok ()
  answer _ _ text := .ok <|
    if "PLAY".toList.isPrefixOf text then ⟨454, [], []⟩
    else ⟨200, [], "m=video 0 RTP/AVP 96\n".toList⟩
  generateCnonce _ _ := []
  md5Hex := id
  toLowercase := asciiLower

/-- A client that is connected, although the camera has refused to play. -/
theorem play_refused : ¬ ∀ client,
    connect forgetfulCamera ⟨"cam".toList, 88, [], [], []⟩ .initial = .ok () client →
      Established ⟨"cam".toList, 88, [], [], []⟩ client := by
  intro h
  have hlast := (h _ rfl).getLast ⟨454, [], []⟩ rfl
  exact absurd hlast (by decide)

end RtspClient

end Fosipcore
