import Fosipcore.Video.Handshake

/-!
# Session headers

A session belongs to the connection on which a SETUP was granted it. The client keeps its session
when it reconnects, and sends PLAY with an empty session when it has none; apart from that, every
session that it sends was returned by the camera on the same connection.

## Main definitions

* `Returned`, `Grants`: sessions in the responses to SETUP
* `OwnSession`: the sessions of a request were returned on its connection
* `Settled`: no connection was left with a session, and PLAY was sent with one
* `Holds`: the invariant of the handshake

## Main results

* `doSetupTrack_follows`: a SETUP keeps the invariant
* `connect_sessions`: the sessions of a settled handshake were returned on their connections
-/

namespace Fosipcore

namespace RtspClient

open Text Fallible

/-- The session in the response to a SETUP. -/
def returnedSession (e : Exchange) : Option Str :=
  if e.request.method = .setup then
    e.response.bind fun response => extractHeader response.headers "Session".toList
  else none

/-- The camera has returned the session, in response to one of the SETUPs. -/
def Returned (before : Dialogue) (session : Str) : Prop :=
  ∃ e ∈ before, returnedSession e = some session

/-- A SETUP was accepted, with a session. -/
def Grants (e : Exchange) : Prop :=
  (∃ response ∈ e.response, response.statusCode = 200) ∧ (returnedSession e).isSome = true

instance (before : Dialogue) (session : Str) : Decidable (Returned before session) :=
  inferInstanceAs (Decidable (∃ e ∈ before, _))

instance (e : Exchange) : Decidable (Grants e) := inferInstanceAs (Decidable (_ ∧ _))

/-- **The sessions of the request** were returned in the exchanges before it. -/
def OwnSession (before : Dialogue) (e : Exchange) : Prop :=
  ∀ header ∈ e.request.headers, header.1 = "Session".toList → Returned before header.2

/-- The first SETUP of a connection has no session. -/
def FirstBare (before : Dialogue) (e : Exchange) : Prop :=
  e.request.method = .setup → (∀ e' ∈ before, e'.request.method ≠ .setup) →
    ∀ header ∈ e.request.headers, header.1 ≠ "Session".toList

/-- PLAY is sent on a connection with a session. -/
def PlaysGranted (before : Dialogue) (e : Exchange) : Prop :=
  e.request.method = .play → ∃ e' ∈ before, Grants e'

instance (before : Dialogue) (e : Exchange) : Decidable (OwnSession before e) :=
  inferInstanceAs (Decidable (∀ header ∈ e.request.headers, _))

instance (before : Dialogue) (e : Exchange) : Decidable (PlaysGranted before e) :=
  inferInstanceAs (Decidable (_ → ∃ e' ∈ before, Grants e'))

/-- No connection was left with a session, and PLAY was sent with one. -/
structure Settled (client : Client) : Prop where
  left : ∀ dialogue ∈ client.past, ∀ e ∈ dialogue, ¬ Grants e
  play : ∀ dialogue ∈ client.dialogues, Trace.Checked PlaysGranted dialogue

/-- The sessions that were sent are those of their connections. -/
def Sound (client : Client) : Prop :=
  ∀ dialogue ∈ client.dialogues, Trace.Checked OwnSession dialogue

/-- The session of the client was granted on this connection. -/
structure Holds (client : Client) : Prop where
  sound : Sound client
  returned : ∀ session, client.session = some session → Returned client.current session
  granted : client.session.isSome = true ↔ ∃ e ∈ client.current, Grants e

/-- The invariant of a handshake that is settled so far. -/
def Follows (client : Client) : Prop := Settled client → Holds client

/-! ## Growing the record -/

theorem OwnSession.firstBare {before : Dialogue} {e : Exchange} (h : OwnSession before e) :
    FirstBare before e := by
  rintro - hfirst header hheader hname
  obtain ⟨e', he', hreturned⟩ := h header hheader hname
  unfold returnedSession at hreturned
  rw [if_neg (hfirst e' he')] at hreturned
  cases hreturned

variable {client : Client} {request : Request} {response : Option Response}

theorem Returned.append {before after : Dialogue} {session : Str} (h : Returned before session) :
    Returned (before ++ after) session := by
  obtain ⟨e, he, hreturned⟩ := h
  exact ⟨e, List.mem_append_left after he, hreturned⟩

/-- The dialogue on this connection grows by one exchange. -/
theorem forall_dialogues_sent {P : Dialogue → Exchange → Prop} :
    (∀ dialogue ∈ (client.sent request response).dialogues, Trace.Checked P dialogue) ↔
      (∀ dialogue ∈ client.dialogues, Trace.Checked P dialogue) ∧
        P client.current ⟨request, response⟩ := by
  simp only [Client.dialogues, Client.sent, List.mem_append, List.mem_singleton, or_imp,
    forall_and, forall_eq, Trace.checked_snoc, and_assoc]

theorem Settled.of_sent (h : Settled (client.sent request response)) :
    Settled client ∧ PlaysGranted client.current ⟨request, response⟩ := by
  obtain ⟨hplay, hnew⟩ := forall_dialogues_sent.mp h.play
  exact ⟨⟨h.left, hplay⟩, hnew⟩

theorem Settled.of_reconnected (h : Settled client.reconnected) :
    Settled client ∧ ∀ e ∈ client.current, ¬ Grants e := by
  refine ⟨⟨fun dialogue hd => ?_, fun dialogue hd => ?_⟩, fun e he => ?_⟩
  · exact h.left dialogue (List.mem_append_left _ hd)
  · exact h.play dialogue (List.mem_append_left _ hd)
  · exact h.left client.current List.mem_concat_self e he

theorem Holds.initial : Holds Client.initial := by
  refine ⟨fun dialogue hd => ?_, fun session h => ?_, ?_⟩
  · obtain rfl := List.mem_singleton.mp hd
    exact .nil
  · cases h
  · simp [Client.initial]

/-- The sessions are sound after a request with sessions of this connection. -/
theorem Sound.sent (h : Sound client) (hown : OwnSession client.current ⟨request, response⟩) :
    Sound (client.sent request response) :=
  forall_dialogues_sent.mpr ⟨h, hown⟩

/-- An exchange that grants nothing leaves the session alone. -/
theorem Holds.sent (h : Holds client) (hown : OwnSession client.current ⟨request, response⟩)
    (hgrants : ¬ Grants ⟨request, response⟩) : Holds (client.sent request response) := by
  refine ⟨h.sound.sent hown, fun session hsession => (h.returned session hsession).append, ?_⟩
  simp only [Client.sent, h.granted, List.mem_append, List.mem_singleton, or_and_right, exists_or,
    exists_eq_left, hgrants, or_false]

/-- An exchange that grants a session gives it to the client. -/
theorem Holds.sent_granted (h : Holds client)
    (hown : OwnSession client.current ⟨request, response⟩) {session : Str}
    (hsession : returnedSession ⟨request, response⟩ = some session)
    (hgrants : Grants ⟨request, response⟩) :
    Holds { client.sent request response with session := some session } := by
  refine ⟨h.sound.sent hown, ?_, ?_⟩
  · rintro _ ⟨⟩
    exact ⟨⟨request, response⟩, List.mem_concat_self, hsession⟩
  · exact iff_of_true rfl ⟨⟨request, response⟩, List.mem_concat_self, hgrants⟩

/-- A new connection has no session, if the old one was granted none. -/
theorem Holds.reconnected (h : Holds client) (hleft : ∀ e ∈ client.current, ¬ Grants e) :
    Holds client.reconnected := by
  have hnone : client.session = none := by
    rw [← Option.not_isSome_iff_eq_none, h.granted]
    rintro ⟨e, he, hgrants⟩
    exact hleft e he hgrants
  refine ⟨fun dialogue hd => ?_, fun session hsession => ?_, ?_⟩
  · rcases List.mem_append.mp hd with hpast | hcurrent
    · exact h.sound dialogue hpast
    · obtain rfl := List.mem_singleton.mp hcurrent
      exact .nil
  · rw [Client.reconnected, hnone] at hsession
    cases hsession
  · simp [Client.reconnected, hnone]

/-! ## The sessions of the requests -/

variable {env : Environment} {target : Target}

theorem OwnSession.of_plain {before : Dialogue}
    (h : ∀ header ∈ request.headers, header.1 ≠ "Session".toList) :
    OwnSession before ⟨request, response⟩ :=
  fun header hheader hname => absurd hname (h header hheader)

theorem not_grants_of_method (h : request.method ≠ .setup) : ¬ Grants ⟨request, response⟩ := by
  rintro ⟨-, hsession⟩
  rw [returnedSession, if_neg h] at hsession
  cases hsession

theorem name_authHeader {auth : Option Str} {header : Str × Str} (h : header ∈ authHeader auth) :
    header.1 ≠ "Session".toList := by
  obtain ⟨value, -, rfl⟩ := Option.map_eq_some_iff.mp (Option.mem_toList.mp h)
  have hname : "Authorization".toList ≠ "Session".toList := by decide
  exact hname

theorem name_transport (interleavedBase : UInt8) :
    (transport interleavedBase).1 ≠ "Session".toList := by
  have hname : "Transport".toList ≠ "Session".toList := by decide
  exact hname

/-- SETUP carries the session of the client, if it has one. -/
theorem Holds.own_setup (h : Holds client) (url : Str) (auth : Option Str)
    (interleavedBase : UInt8) :
    OwnSession client.current ⟨setupRequest url auth interleavedBase client, response⟩ := by
  intro header hheader hname
  rcases List.mem_append.mp hheader with hheader | htransport
  · rcases List.mem_append.mp hheader with hsession | hauth
    · obtain ⟨session, hheld, rfl⟩ := Option.map_eq_some_iff.mp (Option.mem_toList.mp hsession)
      exact h.returned session hheld
    · exact absurd hname (name_authHeader hauth)
  · rw [List.mem_singleton.mp htransport] at hname
    exact absurd hname (name_transport interleavedBase)

/-- PLAY carries the session of the client, which has one. -/
theorem Holds.own_play (h : Holds client) (hgranted : ∃ e ∈ client.current, Grants e) :
    OwnSession client.current ⟨playRequest target client, response⟩ := by
  obtain ⟨session, hsession⟩ := Option.isSome_iff_exists.mp (h.granted.mpr hgranted)
  intro header hheader _
  obtain rfl := List.mem_singleton.mp hheader
  rw [hsession]
  exact h.returned session hsession

theorem returnedSession_setup (url : Str) (auth : Option Str) (interleavedBase : UInt8)
    (response : Response) :
    returnedSession ⟨setupRequest url auth interleavedBase client, some response⟩ =
      extractHeader response.headers "Session".toList := rfl

/-! ## The steps -/

/-- The sessions are sound in a handshake that is settled so far. -/
def Safe (client : Client) : Prop := Settled client → Sound client

theorem Follows.safe (h : Follows client) : Safe client := fun hsettled => (h hsettled).sound

/-- A program that keeps the invariant fails in a state that is sound. -/
theorem safe_of_keeps {α : Type} {program : Handshake α}
    (h : Keeps Follows program) : Triple Follows program (fun _ => Follows) fun _ => Safe :=
  Triple.fails h fun _ _ => Follows.safe

/-- **An exchange** with sessions of this connection that grants nothing. -/
theorem Follows.sent (h : Follows client)
    (hown : Holds client → PlaysGranted client.current ⟨request, response⟩ →
      OwnSession client.current ⟨request, response⟩)
    (hgrants : ¬ Grants ⟨request, response⟩) : Follows (client.sent request response) := by
  intro hsettled
  obtain ⟨hbefore, hplay⟩ := hsettled.of_sent
  exact (h hbefore).sent (hown (h hbefore) hplay) hgrants

/-- A request of another method than SETUP. -/
theorem roundTrip_follows {request : Client → Request}
    (hmethod : ∀ client, (request client).method ≠ .setup)
    (hown : ∀ client response, Holds client →
      PlaysGranted client.current ⟨request client, response⟩ →
      OwnSession client.current ⟨request client, response⟩) :
    Keeps Follows (roundTrip env request) := by
  refine (roundTrip_triple request).weaken ?_ ?_
  · rintro response _ ⟨client, h, -, rfl⟩
    exact h.sent (hown client _) (not_grants_of_method (hmethod client))
  · rintro failure _ ⟨client, h, rfl⟩
    exact h.sent (hown client _) (not_grants_of_method (hmethod client))

theorem reconnect_follows : Keeps Follows (reconnect env) := by
  refine reconnect_triple.post ?_
  rintro _ _ ⟨client, h, rfl⟩ hsettled
  obtain ⟨hbefore, hleft⟩ := hsettled.of_reconnected
  exact (h hbefore).reconnected hleft

theorem authorization_follows (method : Method) (uri wwwAuth : Str) :
    Keeps Follows (authorization env target method uri wwwAuth) :=
  (authorization_triple method uri wwwAuth).post fun _ _ h => h.2

theorem options_follows : Keeps Follows (options env target) := by
  refine .bind (roundTrip_follows (fun _ => nofun) fun client response _ _ => ?_) fun _ => .pure ()
  exact .of_plain nofun

theorem play_follows : Keeps Follows (play env target) := by
  refine .bind (roundTrip_follows (fun _ => nofun) fun client response h hplay => ?_)
    fun _ => .pure ()
  exact h.own_play (hplay rfl)

theorem describeRequest_follows (auth : Option Str) :
    Keeps Follows (roundTrip env (describeRequest target auth)) := by
  refine roundTrip_follows (fun _ => nofun) fun client response _ _ => .of_plain ?_
  intro header hheader
  rcases List.mem_cons.mp hheader with rfl | hauth
  · have hname : "Accept".toList ≠ "Session".toList := by decide
    exact hname
  · exact name_authHeader hauth

theorem tryDescribe_follows : Keeps Follows (tryDescribe env target) := by
  refine .bind (describeRequest_follows none) fun response => ?_
  split_ifs
  · exact orFail_keeps _
  · exact .throw _

theorem digestDescribe_follows : Keeps Follows (digestDescribe env target) := by
  refine .bind (describeRequest_follows none) fun response => ?_
  split_ifs
  · exact orFail_keeps _
  · exact .throw _
  · refine .bind (orFail_keeps _) fun wwwAuth => ?_
    refine .bind (authorization_follows _ _ wwwAuth) fun auth => ?_
    refine .bind (describeRequest_follows (some auth)) fun response => ?_
    split_ifs
    · exact orFail_keeps _
    · exact .throw _

theorem describe_follows : Keeps Follows (describe env target) := by
  refine .bind tryDescribe_follows.attempt ?_
  rintro (_ | media)
  · refine .bind digestDescribe_follows.attempt ?_
    rintro (_ | media)
    · exact .bind reconnect_follows fun _ => digestDescribe_follows
    · exact .pure media
  · exact .pure media

/-- The request for a challenge has no session; a session in the response to it is not stored, and
the handshake ends unless the response is a challenge. -/
theorem fetchSetupChallenge_follows (media : List SdpMedia) :
    Triple Follows (fetchSetupChallenge env target media) (fun _ => Follows) fun _ => Safe := by
  have hown : ∀ (url : Str) (client : Client) (response : Option Response),
      OwnSession client.current ⟨challengeRequest url client, response⟩ := by
    refine fun url client response => .of_plain fun header hheader => ?_
    rw [List.mem_singleton.mp hheader]
    exact name_transport 0
  refine .bind (safe_of_keeps (orFail_keeps media.head?)) fun first => ?_
  refine .bind (safe_of_keeps (ofExcept_keeps (trackUrl target first))) fun url => ?_
  refine .bind ((roundTrip_triple (challengeRequest url)).fails ?_) fun response => ?_
  · rintro failure _ ⟨client, h, rfl⟩ hsettled
    exact (h hsettled.of_sent.1).sound.sent (hown url client none)
  · split_ifs with hstatus
    · rintro _ ⟨client, h, -, rfl⟩ hsettled
      exact (h hsettled.of_sent.1).sound.sent (hown url client (some response))
    · refine (safe_of_keeps (orFail_keeps _)).pre ?_
      rintro _ ⟨client, h, -, rfl⟩
      refine h.sent (fun _ _ => hown url client (some response)) ?_
      -- a challenge grants nothing
      rintro ⟨⟨_, ⟨⟩, hok⟩, -⟩
      rw [not_not.mp hstatus] at hok
      cases hok

theorem trackAuthorization_follows (url : Str) (challenge : Option Str) :
    Keeps Follows (trackAuthorization env target url challenge) := by
  cases challenge with
  | none => exact .pure none
  | some wwwAuth =>
    rw [trackAuthorization, map_eq_pure_bind]
    exact .bind (authorization_follows .setup url wwwAuth) fun header => .pure (some header)

/-- **A SETUP** gives the client the session that it was granted. -/
theorem doSetupTrack_follows (media : SdpMedia) (interleavedBase : UInt8)
    (challenge : Option Str) :
    Keeps Follows (doSetupTrack env target media interleavedBase challenge) := by
  refine .bind (ofExcept_keeps (trackUrl target media)) fun url => ?_
  refine .bind (trackAuthorization_follows url challenge) fun auth => ?_
  refine Triple.bind ((roundTrip_triple _).fails ?_) fun response => ?_
  · rintro failure _ ⟨client, h, rfl⟩
    refine h.sent (fun hholds _ => hholds.own_setup url auth interleavedBase) ?_
    rintro ⟨⟨_, ⟨⟩, -⟩, -⟩
  · rintro _ ⟨client, h, -, rfl⟩
    split_ifs with hstatus
    · refine h.sent (fun hholds _ => hholds.own_setup url auth interleavedBase) ?_
      rintro ⟨⟨_, ⟨⟩, hok⟩, -⟩
      exact hstatus hok
    · rw [storeSession]
      cases hsession : extractHeader response.headers "Session".toList with
      | none =>
        refine h.sent (fun hholds _ => hholds.own_setup url auth interleavedBase) ?_
        rintro ⟨-, hsome⟩
        rw [returnedSession_setup, hsession] at hsome
        cases hsome
      | some session =>
        intro hsettled
        -- the record does not show the session of the client
        have hsent : Settled (client.sent (setupRequest url auth interleavedBase client)
            (some response)) := ⟨hsettled.left, hsettled.play⟩
        have hbefore := h hsent.of_sent.1
        have hreturned : returnedSession
            ⟨setupRequest url auth interleavedBase client, some response⟩ = some session :=
          (returnedSession_setup url auth interleavedBase response).trans hsession
        refine hbefore.sent_granted (hbefore.own_setup url auth interleavedBase) hreturned ?_
        exact ⟨⟨response, rfl, not_not.mp hstatus⟩, by rw [hreturned]; rfl⟩

theorem setupAllTracks_follows (challenge : Option Str) (media : List SdpMedia) (i : ℕ) :
    Keeps Follows (setupAllTracks env target challenge i media) := by
  induction media generalizing i with
  | nil => exact .pure ()
  | cons m media ih => exact .bind (doSetupTrack_follows m _ challenge) fun _ => ih (i + 1)

theorem setupAll_follows (media : List SdpMedia) :
    Triple Follows (setupAll env target media) (fun _ => Follows) fun _ => Safe := by
  refine .bind (safe_of_keeps (setupAllTracks_follows none media 0).attempt) ?_
  rintro (_ | _)
  · refine .bind (safe_of_keeps reconnect_follows) fun _ => ?_
    refine .bind (fetchSetupChallenge_follows media) fun challenge => ?_
    exact safe_of_keeps (setupAllTracks_follows (some challenge) media 0)
  · exact fun _ h => h

theorem connect_follows :
    Triple Follows (connect env target) (fun _ => Follows) fun _ => Safe := by
  refine .bind (safe_of_keeps accept_triple) fun _ => ?_
  refine .bind (safe_of_keeps options_follows) fun _ => ?_
  refine .bind (safe_of_keeps describe_follows) fun media => ?_
  exact .bind (setupAll_follows media) fun _ => safe_of_keeps play_follows

/-- **The sessions that a handshake sends** were returned by the camera on the same connection, if no
connection was left with a session and PLAY was sent with one. In particular the first SETUP of a
connection has none. -/
theorem connect_sessions (env : Environment) (target : Target)
    (h : Settled (final (connect env target) Client.initial)) :
    ∀ dialogue ∈ (final (connect env target) Client.initial).dialogues,
      Trace.Checked OwnSession dialogue ∧ Trace.Checked FirstBare dialogue := by
  have hsafe : Safe (final (connect env target) Client.initial) :=
    (connect_follows.post fun _ _ => Follows.safe).final fun _ => .initial
  intro dialogue hdialogue
  have hown := hsafe h dialogue hdialogue
  exact ⟨hown, fun past e rest hsplit => (hown past e rest hsplit).firstBare⟩

/-- A camera with two sections that asks for an authorization of SETUP, apart from the very first one
if it is lenient, and grants a session to the SETUPs that it accepts. -/
def sessionCamera (lenient : Bool) : Environment where
  accepts _ := .ok ()
  answer past current text := .ok <|
    if "DESCRIBE".toList.isPrefixOf text then
      ⟨200, [], "m=video 0 RTP/AVP 96\nm=audio 0 RTP/AVP 0\n".toList⟩
    else if "PLAY".toList.isPrefixOf text ∨ (splitOnce "Authorization".toList text).isSome ∨
        lenient ∧ past = [] ∧ current.length = 2 then ⟨200, "Session: 7\r\n".toList, []⟩
    else ⟨401, "WWW-Authenticate: Digest realm=\"IPCAM\", nonce=\"1f\"\r\n".toList, []⟩
  generateCnonce _ _ := []
  md5Hex := id
  toLowercase := asciiLower

def bareTarget : Target := ⟨"cam".toList, 88, [], [], []⟩

/-- Both sections are set up, and played, on a second connection. -/
theorem connect_sessions_second :
    (final (connect (sessionCamera false) bareTarget) Client.initial).current.length = 4 ∧
      ∀ dialogue ∈ (final (connect (sessionCamera false) bareTarget) Client.initial).dialogues,
        Trace.Checked OwnSession dialogue ∧ Trace.Checked FirstBare dialogue :=
  ⟨by decide +kernel, connect_sessions _ _ ⟨by decide +kernel, by decide +kernel⟩⟩

/-- The session of the first connection is sent on the second one. -/
theorem connect_sends_old_session :
    ¬ ∀ (env : Environment) (target : Target),
      ∀ dialogue ∈ (final (connect env target) Client.initial).dialogues,
        Trace.Checked OwnSession dialogue := by
  intro h
  have hown := h (sessionCamera true) bareTarget
  revert hown
  decide +kernel

end RtspClient

end Fosipcore
