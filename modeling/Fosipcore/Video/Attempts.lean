import Fosipcore.Video.Established
import Fosipcore.Video.ServedHandshake

/-!
# How often a handshake tries

The client repeats DESCRIBE and SETUP where the camera asks for an authorization, and goes to a new
connection for it. Whatever the camera answers, there are at most three connections in a handshake,
the number of requests is bounded by the number of tracks, and at most two authorizations are
refused. So a password that is wrong is not tried over and over. The password itself is never sent:
the whole handshake is a function of its hashes.

Every step is charged with what it adds to a client that is within some effort, and an error may be
more expensive than a success: an authorization that is refused ends the step.

## Main definitions

* `Exchange.refused`: an authorization was sent, and refused
* `Effort`, `Within`: what a client has done at most

## Main results

* `describe_within`, `setupAll_within`: the efforts of the steps
* `connect_effort`: the effort of a handshake
* `connect_view`: what a handshake tells of the password
-/

namespace Fosipcore

namespace RtspClient

open Text Fallible

variable {env : Environment} {target : Target} {client : Client} {c q f : ℕ}

/-! ## Efforts -/

/-- An authorization was sent, and another status than 200 was the answer. -/
def Exchange.refused (e : Exchange) : Bool :=
  (e.request.header "Authorization".toList).isSome &&
    e.response.any fun response => response.statusCode ≠ 200

/-- Numbers of connections behind the first one, of requests, and of refused authorizations. -/
structure Effort where
  reconnects : ℕ
  requests : ℕ
  refusals : ℕ

/-- What the client has on record took no more than the effort. -/
structure Within (k : Effort) (client : Client) : Prop where
  reconnects : client.past.length ≤ k.reconnects
  requests : client.log.length ≤ k.requests
  refusals : client.log.countP Exchange.refused ≤ k.refusals

theorem within_initial : Within ⟨0, 0, 0⟩ Client.initial :=
  ⟨le_rfl, le_rfl, le_rfl⟩

theorem Within.mono {c' q' f' : ℕ} (h : Within ⟨c, q, f⟩ client) (hreconnects : c ≤ c')
    (hrequests : q ≤ q') (hrefusals : f ≤ f') : Within ⟨c', q', f'⟩ client :=
  ⟨h.reconnects.trans hreconnects, h.requests.trans hrequests, h.refusals.trans hrefusals⟩

/-- One more request, which is refused or not. -/
theorem Within.sent (h : Within ⟨c, q, f⟩ client) (request : Request) (response : Option Response) :
    Within ⟨c, q + 1, f + if (⟨request, response⟩ : Exchange).refused then 1 else 0⟩
      (client.sent request response) where
  reconnects := h.reconnects
  requests := by
    rw [Client.log_sent, List.length_append]
    exact Nat.succ_le_succ h.requests
  refusals := by
    rw [Client.log_sent, List.countP_append, List.countP_singleton]
    exact Nat.add_le_add_right h.refusals _

theorem Within.reconnected (h : Within ⟨c, q, f⟩ client) :
    Within ⟨c + 1, q, f⟩ client.reconnected where
  reconnects := by
    rw [Client.reconnected, Client.dialogues, List.length_append]
    exact Nat.succ_le_succ h.reconnects
  requests := by
    rw [Client.log_reconnected]
    exact h.requests
  refusals := by
    rw [Client.log_reconnected]
    exact h.refusals

/-! ## The steps -/

theorem refused_none (request : Request) : (⟨request, none⟩ : Exchange).refused = false :=
  Bool.and_false _

theorem refused_accepted {request : Request} {response : Response}
    (h : response.statusCode = 200) : (⟨request, some response⟩ : Exchange).refused = false := by
  simp [Exchange.refused, h]

theorem refused_open {request : Request} {response : Option Response}
    (h : request.header "Authorization".toList = none) :
    (⟨request, response⟩ : Exchange).refused = false := by
  rw [Exchange.refused, h]
  rfl

/-- A round trip is one request, which is refused with another status than 200. -/
theorem roundTrip_within (request : Client → Request) :
    Triple (Within ⟨c, q, f⟩) (roundTrip env request)
      (fun response => Within ⟨c, q + 1, if response.statusCode = 200 then f else f + 1⟩)
      fun _ => Within ⟨c, q + 1, f⟩ := by
  refine (roundTrip_triple request).weaken ?_ ?_
  · rintro response _ ⟨client, h, -, rfl⟩
    refine (h.sent (request client) (some response)).mono le_rfl le_rfl ?_
    split_ifs with hrefused hok hok
    · rw [refused_accepted hok] at hrefused
      cases hrefused
    · exact le_rfl
    · exact le_rfl
    · exact Nat.le_succ f
  · rintro failure _ ⟨client, h, rfl⟩
    have hsent := h.sent (request client) none
    rw [refused_none] at hsent
    exact hsent

/-- Without an authorization none is refused. -/
theorem roundTrip_open {request : Client → Request}
    (hopen : ∀ client, (request client).header "Authorization".toList = none) :
    Triple (Within ⟨c, q, f⟩) (roundTrip env request) (fun _ => Within ⟨c, q + 1, f⟩)
      fun _ => Within ⟨c, q + 1, f⟩ := by
  refine (roundTrip_triple request).weaken ?_ ?_
  · rintro response _ ⟨client, h, -, rfl⟩
    have hsent := h.sent (request client) (some response)
    rw [refused_open (hopen client)] at hsent
    exact hsent
  · rintro failure _ ⟨client, h, rfl⟩
    have hsent := h.sent (request client) none
    rw [refused_none] at hsent
    exact hsent

theorem reconnect_within :
    Triple (Within ⟨c, q, f⟩) (reconnect env) (fun _ => Within ⟨c + 1, q, f⟩)
      fun _ => Within ⟨c, q, f⟩ := by
  refine reconnect_triple.post ?_
  rintro _ _ ⟨client, h, rfl⟩
  exact h.reconnected

theorem storeSession_within {k : Effort} (headers : Str) :
    Keeps (Within k) (storeSession headers) := by
  refine (storeSession_triple headers).post ?_
  rintro _ _ ⟨client, session, h, rfl⟩
  exact ⟨h.reconnects, h.requests, h.refusals⟩

/-! ## DESCRIBE -/

theorem describe_open (client : Client) :
    (describeRequest target none client).header "Authorization".toList = none :=
  header_describeRequest none client

theorem tryDescribe_within :
    Triple (Within ⟨c, q, f⟩) (tryDescribe env target) (fun _ => Within ⟨c, q + 1, f⟩)
      fun _ => Within ⟨c, q + 1, f⟩ := by
  refine .bind (roundTrip_open describe_open) fun response => ?_
  split_ifs
  · exact orFail_keeps _
  · exact (Triple.throw _).pre fun _ => id

/-- An authorized DESCRIBE that is refused is the second of two requests. -/
theorem digestDescribe_within :
    Triple (Within ⟨c, q, f⟩) (digestDescribe env target) (fun _ => Within ⟨c, q + 2, f⟩)
      fun _ => Within ⟨c, q + 2, f + 1⟩ := by
  have hmore : ∀ client, Within ⟨c, q + 1, f⟩ client → Within ⟨c, q + 2, f⟩ client :=
    fun _ h => h.mono le_rfl (Nat.le_succ _) le_rfl
  have hworse : ∀ client, Within ⟨c, q + 2, f⟩ client → Within ⟨c, q + 2, f + 1⟩ client :=
    fun _ h => h.mono le_rfl le_rfl (Nat.le_succ f)
  have hearly : ∀ client, Within ⟨c, q + 1, f⟩ client → Within ⟨c, q + 2, f + 1⟩ client :=
    fun client h => hworse client (hmore client h)
  refine .bind ((roundTrip_open describe_open).fails fun _ => hearly) fun response => ?_
  split_ifs with hok hstatus
  · exact (orFail_keeps _).weaken (fun _ => hmore) fun _ => hearly
  · exact (Triple.throw _).pre hearly
  · refine .bind ((orFail_keeps _).fails fun _ => hearly) fun wwwAuth => ?_
    refine .bind ((authorization_triple _ _ wwwAuth).weaken (fun _ _ h => h.2) fun _ => hearly)
      fun auth => ?_
    refine .bind ((roundTrip_within _).fails fun _ => hworse) fun response => ?_
    split_ifs
    · exact (orFail_keeps _).fails fun _ => hworse
    · exact (Triple.throw _).pre fun _ => id

/-- **DESCRIBE** takes at most five requests, and two refused authorizations end it. -/
theorem describe_within :
    Triple (Within ⟨c, q, f⟩) (describe env target) (fun _ => Within ⟨c + 1, q + 5, f + 1⟩)
      fun _ => Within ⟨c + 1, q + 5, f + 2⟩ := by
  refine tryDescribe_within.attempt_bind
    (fun media => (Triple.pure media).pre fun _ h => h.mono (by omega) (by omega) (by omega))
    (fun _ _ => ?_) fun _ _ _ h => h.mono (by omega) (by omega) (by omega)
  refine digestDescribe_within.attempt_bind
    (fun media => (Triple.pure media).pre fun _ h => h.mono (by omega) (by omega) (by omega))
    (fun _ _ => ?_) fun _ _ _ h => h.mono (by omega) (by omega) (by omega)
  exact .bind (reconnect_within.fails fun _ _ h => h.mono (by omega) (by omega) (by omega))
    fun _ => digestDescribe_within

/-! ## SETUP -/

/-- The authorizations that a track is set up with: one with a challenge, and otherwise none. -/
theorem roundTrip_setup (url : Str) (auth : Option Str) (base : UInt8) :
    Triple (Within ⟨c, q, f⟩) (roundTrip env (setupRequest url auth base))
      (fun response => Within ⟨c, q + 1, if response.statusCode = 200 then f
        else f + auth.toList.length⟩)
      fun _ => Within ⟨c, q + 1, f⟩ := by
  cases auth with
  | some auth => exact roundTrip_within _
  | none =>
    refine (roundTrip_open fun client => (header_setupRequest url none base client).1).post ?_
    intro response client h
    split_ifs
    · exact h
    · exact h

theorem trackAuthorization_within {k : Effort} (url : Str) (challenge : Option Str) :
    Triple (Within k) (trackAuthorization env target url challenge)
      (fun auth client => auth.toList.length ≤ challenge.toList.length ∧ Within k client)
      fun _ => Within k := by
  cases challenge with
  | none => exact (Triple.pure none).pre fun _ h => ⟨le_rfl, h⟩
  | some wwwAuth =>
    rw [trackAuthorization, map_eq_pure_bind]
    refine .bind ((authorization_triple _ _ wwwAuth).post fun _ _ h => h.2) fun header => ?_
    exact (Triple.pure (some header)).pre fun _ h => ⟨le_rfl, h⟩

theorem doSetupTrack_within (m : SdpMedia) (base : UInt8) (challenge : Option Str) :
    Triple (Within ⟨c, q, f⟩) (doSetupTrack env target m base challenge)
      (fun _ => Within ⟨c, q + 1, f⟩)
      fun _ => Within ⟨c, q + 1, f + challenge.toList.length⟩ := by
  have hearly : ∀ client, Within ⟨c, q, f⟩ client →
      Within ⟨c, q + 1, f + challenge.toList.length⟩ client :=
    fun _ h => h.mono le_rfl (Nat.le_succ q) (Nat.le_add_right _ _)
  refine .bind ((ofExcept_keeps _).fails fun _ => hearly) fun url => ?_
  refine .bind ((trackAuthorization_within url challenge).fails fun _ => hearly)
    fun auth => .of_pre fun hauth => ?_
  refine .bind ((roundTrip_setup url auth base).fails fun _ _ h =>
    h.mono le_rfl le_rfl (Nat.le_add_right _ _)) fun response => ?_
  by_cases hok : response.statusCode = 200
  · rw [if_pos hok, if_neg (not_not.mpr hok)]
    exact (storeSession_within _).fails fun _ _ h => h.mono le_rfl le_rfl (Nat.le_add_right _ _)
  · rw [if_neg hok, if_pos hok]
    refine (Triple.throw _).pre fun _ h => h.mono le_rfl le_rfl ?_
    exact Nat.add_le_add_left hauth f

theorem setupAllTracks_within (challenge : Option Str) (i : ℕ) (media : List SdpMedia) :
    Triple (Within ⟨c, q, f⟩) (setupAllTracks env target challenge i media)
      (fun _ => Within ⟨c, q + media.length, f⟩)
      fun _ => Within ⟨c, q + media.length, f + challenge.toList.length⟩ := by
  induction media generalizing i q with
  | nil => exact (Triple.pure ()).pre fun _ => id
  | cons m media ih =>
    have hlength : q + (m :: media).length = q + 1 + media.length := by
      rw [List.length_cons]
      omega
    rw [hlength]
    -- a track that is refused is the last one
    refine .bind ((doSetupTrack_within m _ challenge).fails fun _ _ h =>
      h.mono le_rfl (Nat.le_add_right _ _) le_rfl) fun _ => ih (i + 1)

theorem fetchSetupChallenge_within (media : List SdpMedia) :
    Triple (Within ⟨c, q, f⟩) (fetchSetupChallenge env target media)
      (fun _ => Within ⟨c, q + 1, f⟩) fun _ => Within ⟨c, q + 1, f⟩ := by
  have hearly : ∀ client, Within ⟨c, q, f⟩ client → Within ⟨c, q + 1, f⟩ client :=
    fun _ h => h.mono le_rfl (Nat.le_succ q) le_rfl
  refine .bind ((orFail_keeps _).fails fun _ => hearly) fun first => ?_
  refine .bind ((ofExcept_keeps _).fails fun _ => hearly) fun url => ?_
  refine .bind (roundTrip_open fun _ => rfl) fun response => ?_
  split_ifs
  · exact (Triple.throw _).pre fun _ => id
  · exact orFail_keeps _

/-- **SETUP** takes two requests for a track and one more, and a refused authorization ends it. -/
theorem setupAll_within (media : List SdpMedia) :
    Triple (Within ⟨c, q, f⟩) (setupAll env target media)
      (fun _ => Within ⟨c + 1, q + (2 * media.length + 1), f⟩)
      fun _ => Within ⟨c + 1, q + (2 * media.length + 1), f + 1⟩ := by
  have hnone : (none : Option Str).toList.length = 0 := rfl
  refine (setupAllTracks_within none 0 media).attempt_bind
    (fun _ => (Triple.pure ()).pre fun _ h => h.mono (by omega) (by omega) (by omega))
    (fun _ _ => ?_) fun _ _ _ h => h.mono (by omega) (by omega) (by omega)
  refine .bind (reconnect_within.fails fun _ _ h => h.mono (by omega) (by omega) (by omega))
    fun _ => ?_
  refine .bind ((fetchSetupChallenge_within media).fails fun _ _ h =>
    h.mono (by omega) (by omega) (by omega)) fun wwwAuth => ?_
  have hone : (some wwwAuth).toList.length = 1 := rfl
  exact (setupAllTracks_within (some wwwAuth) 0 media).weaken
    (fun _ _ h => h.mono (by omega) (by omega) (by omega))
    fun _ _ h => h.mono (by omega) (by omega) (by omega)

/-! ## The handshake -/

theorem options_within :
    Triple (Within ⟨c, q, f⟩) (options env target) (fun _ => Within ⟨c, q + 1, f⟩)
      fun _ => Within ⟨c, q + 1, f⟩ :=
  .bind (roundTrip_open fun _ => rfl) fun _ => (Triple.pure ()).pre fun _ => id

theorem describe_described_within :
    Triple (Within ⟨c, q, f⟩) (describe env target)
      (fun media client => Described media client ∧ Within ⟨c + 1, q + 5, f + 1⟩ client)
      fun _ => Within ⟨c + 1, q + 5, f + 2⟩ :=
  (describe_described.and describe_within).consequence (fun _ h => ⟨h, h⟩) (fun _ _ => id)
    fun _ _ h => h.2

theorem setupAllTracks_described (challenge : Option Str) (media sections : List SdpMedia) :
    Keeps (Described media) (setupAllTracks env target challenge 0 sections) := by
  intro client h
  refine Triple.post (setupAllTracks_setUp challenge sections 0 client.current) ?_ client ⟨h, rfl⟩
  rintro _ client' ⟨setups, -, hat⟩
  exact hat.1

theorem setupAll_described (media : List SdpMedia) :
    Keeps (Described media) (setupAll env target media) := by
  refine (setupAllTracks_described none media media).attempt_bind (fun _ => ?_) (fun _ _ => ?_)
    fun _ _ _ => id
  · exact (Triple.pure ()).pre fun _ => id
  · refine .bind reconnect_described fun _ => ?_
    exact .bind (fetchSetupChallenge_described media) fun wwwAuth =>
      setupAllTracks_described (some wwwAuth) media media

theorem setupAll_described_within (media : List SdpMedia) :
    Triple (fun client => Described media client ∧ Within ⟨c, q, f⟩ client)
      (setupAll env target media)
      (fun _ client =>
        Described media client ∧ Within ⟨c + 1, q + (2 * media.length + 1), f⟩ client)
      fun _ client =>
        Described media client ∧ Within ⟨c + 1, q + (2 * media.length + 1), f + 1⟩ client :=
  Triple.and (setupAll_described media) (setupAll_within media)

theorem play_described_within (media : List SdpMedia) :
    Triple (fun client => Described media client ∧ Within ⟨c, q, f⟩ client) (play env target)
      (fun _ client => Described media client ∧ Within ⟨c, q + 1, f⟩ client)
      fun _ client => Described media client ∧ Within ⟨c, q + 1, f⟩ client :=
  .bind (Triple.and (roundTrip_described _) (roundTrip_open fun _ => rfl))
    fun _ => (Triple.pure ()).pre fun _ => id

/-- Tracks were described, and the client is within the effort of a handshake for their number; or
none were, and it is within that of a handshake for none. -/
def EffortBounded (refusals : ℕ) (client : Client) : Prop :=
  ∃ n, (n = 0 ∨ ∃ media, Described media client ∧ media.length = n) ∧
    Within ⟨2, 2 * n + 8, refusals⟩ client

theorem Within.effortBounded (h : Within ⟨c, q, f⟩ client) (hreconnects : c ≤ 2) (hrequests : q ≤ 8)
    {refusals : ℕ} (hrefusals : f ≤ refusals) : EffortBounded refusals client :=
  ⟨0, .inl rfl, h.mono hreconnects hrequests hrefusals⟩

theorem Described.effortBounded {media : List SdpMedia} (h : Described media client)
    (hwithin : Within ⟨2, q, f⟩ client) (hrequests : q ≤ 2 * media.length + 8)
    {refusals : ℕ} (hrefusals : f ≤ refusals) : EffortBounded refusals client :=
  ⟨media.length, .inr ⟨media, h, rfl⟩, hwithin.mono le_rfl hrequests hrefusals⟩

theorem connect_effortBounded :
    Triple (fun client => client = Client.initial) (connect env target) (fun _ => EffortBounded 1)
      fun _ => EffortBounded 2 := by
  have hstart : ∀ client, client = Client.initial → Within ⟨0, 0, 0⟩ client :=
    fun _ h => h ▸ within_initial
  -- a failure before the tracks are described
  refine .bind (accept_triple.fails fun _ client h =>
    (hstart client h).effortBounded (by omega) (by omega) (by omega)) fun _ => ?_
  refine .bind (options_within.consequence hstart (fun _ _ => id) fun _ _ h =>
    h.effortBounded (by omega) (by omega) (by omega)) fun _ => ?_
  refine .bind (describe_described_within.fails fun _ _ h =>
    h.effortBounded (by omega) (by omega) (by omega)) fun media => ?_
  -- and after that
  refine .bind ((setupAll_described_within media).fails fun _ _ h =>
    h.1.effortBounded h.2 (by omega) (by omega)) fun _ => ?_
  exact (play_described_within media).weaken
    (fun _ _ h => h.1.effortBounded h.2 (by omega) (by omega))
    fun _ _ h => h.1.effortBounded h.2 (by omega) (by omega)

/-- **The effort of a handshake**, whatever the camera answers: at most three connections, eight
requests and two for every track, and two authorizations that are refused, or one if the handshake
succeeds. -/
theorem connect_effort (env : Environment) (target : Target) :
    EffortBounded 2 (final (connect env target) Client.initial) ∧
      ∀ client, connect env target Client.initial = .ok () client → EffortBounded 1 client := by
  constructor
  · refine Triple.final (connect_effortBounded.post fun _ client h => ?_) rfl
    obtain ⟨n, hn, hwithin⟩ := h
    exact ⟨n, hn, hwithin.mono le_rfl le_rfl (Nat.le_succ 1)⟩
  · exact fun client hconnect => connect_effortBounded.ok rfl hconnect

/-! ## The password -/

/-- The target with another password. -/
def Target.withPwd (target : Target) (pwd : Str) : Target := { target with pwd := pwd }

/-- Another password is hashed like that of the target, with the user and every realm. -/
def Alike (md5Hex : Str → Str) (target : Target) (pwd : Str) : Prop :=
  ∀ realm, md5Hex (colons [target.user, realm, target.pwd]) =
    md5Hex (colons [target.user, realm, pwd])

section Alike

variable {pwd : Str} (h : Alike env.md5Hex target pwd)

include h

theorem authorization_withPwd (method : Method) (uri wwwAuth : Str) :
    authorization env (target.withPwd pwd) method uri wwwAuth =
      authorization env target method uri wwwAuth := by
  have hanswer : ∀ (challenge : Challenge) (cnonce : Str),
      challenge.answer env.md5Hex (target.withPwd pwd) cnonce method uri =
        challenge.answer env.md5Hex target cnonce method uri := by
    intro challenge cnonce
    rw [Challenge.answer, Challenge.answer, h challenge.realm]
    rfl
  have hheader : ∀ cnonce, digestAuthHeader env (target.withPwd pwd) cnonce method uri wwwAuth =
      digestAuthHeader env target cnonce method uri wwwAuth := by
    intro cnonce
    rw [digestAuthHeader_eq, digestAuthHeader_eq]
    simp only [hanswer]
  funext client
  rw [authorization, authorization, hheader]

/-- Addresses and requests do not have the password in them. -/
theorem digestDescribe_withPwd :
    digestDescribe env (target.withPwd pwd) = digestDescribe env target := by
  have hauthorization := authorization_withPwd h .describe (rtspUrl target)
  change (roundTrip env (describeRequest target none) >>= _) = _
  rw [digestDescribe]
  refine congrArg _ (funext fun response => ?_)
  split_ifs
  · rfl
  · rfl
  · refine congrArg _ (funext fun wwwAuth => ?_)
    exact congrArg (· >>= _) (hauthorization wwwAuth)

theorem describe_withPwd : describe env (target.withPwd pwd) = describe env target := by
  have htry : tryDescribe env (target.withPwd pwd) = tryDescribe env target := rfl
  rw [describe, describe, htry, digestDescribe_withPwd h]

theorem doSetupTrack_withPwd (m : SdpMedia) (base : UInt8) (challenge : Option Str) :
    doSetupTrack env (target.withPwd pwd) m base challenge =
      doSetupTrack env target m base challenge := by
  have hauthorization : ∀ url, trackAuthorization env (target.withPwd pwd) url challenge =
      trackAuthorization env target url challenge := by
    intro url
    cases challenge with
    | none => rfl
    | some wwwAuth =>
      rw [trackAuthorization, trackAuthorization, authorization_withPwd h]
  have htrack : trackUrl (target.withPwd pwd) m = trackUrl target m := rfl
  simp only [doSetupTrack, hauthorization, htrack]

theorem setupAllTracks_withPwd (challenge : Option Str) (i : ℕ) (media : List SdpMedia) :
    setupAllTracks env (target.withPwd pwd) challenge i media =
      setupAllTracks env target challenge i media := by
  induction media generalizing i with
  | nil => rfl
  | cons m media ih =>
    rw [setupAllTracks, setupAllTracks, doSetupTrack_withPwd h, ih]

theorem setupAll_withPwd (media : List SdpMedia) :
    setupAll env (target.withPwd pwd) media = setupAll env target media := by
  have hfetch : fetchSetupChallenge env (target.withPwd pwd) media =
      fetchSetupChallenge env target media := rfl
  simp only [setupAll, setupAllTracks_withPwd h, hfetch]

theorem connect_withPwd : connect env (target.withPwd pwd) = connect env target := by
  have hoptions : options env (target.withPwd pwd) = options env target := rfl
  have hplay : play env (target.withPwd pwd) = play env target := rfl
  simp only [connect, handshake, hoptions, hplay, describe_withPwd h, setupAll_withPwd h]

end Alike

/-- **The password is only hashed**: whatever the camera answers, the handshake is a function of the
address, the user, and of the hashes of the password with the user and a realm. -/
theorem connect_view (env : Environment) :
    ∃ view : Str → UInt16 → Str → Str → (Str → Str) → Handshake Unit, ∀ target : Target,
      connect env target = view target.host target.port target.path target.user
        fun realm => env.md5Hex (colons [target.user, realm, target.pwd]) := by
  classical
  -- any password will do that has the same hashes
  refine ⟨fun host port path user ha1 =>
    if h : ∃ pwd, ∀ realm, ha1 realm = env.md5Hex (colons [user, realm, pwd]) then
      connect env ⟨host, port, path, user, h.choose⟩
    else throw .failed, fun target => ?_⟩
  have hex : ∃ pwd, Alike env.md5Hex target pwd := ⟨target.pwd, fun _ => rfl⟩
  have hconnect : connect env (target.withPwd hex.choose) = connect env target :=
    connect_withPwd hex.choose_spec
  refine hconnect.symm.trans (Eq.symm ?_)
  dsimp only
  exact dif_pos hex

end RtspClient

end Fosipcore
