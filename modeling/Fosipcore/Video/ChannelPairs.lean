import Fosipcore.Video.Handshake

/-!
# The channel pairs of the tracks

Each media section is set up with a pair of interleaved channels: the base, which is the double of
its place, and the channel behind it. A base is a byte, and a place that is too large for it gets the
last byte, behind which there is no channel. There is room for 128 sections.

The loop ends at the first section that fails. A section with a control attribute that is not
accepted fails before a request is built for it; whether the others fail is up to the camera.

## Main definitions

* `setupBases`: the bases of the requests that are built
* `ChannelsSafe`: no two pairs share a channel, and no base is the last byte

## Main results

* `setupAllTracks_recorded`: the requests that are sent are those with these bases
* `channelsSafe_iff`: the descriptions whose channels are safe, whatever the camera answers
-/

namespace Fosipcore

namespace RtspClient

open Text Fallible

variable (env : Environment) (target : Target)

/-! ## The bases that are requested -/

/-- Whether a SETUP request is built for a section: there are an address and, behind a challenge, an
authorization. -/
def buildsRequest (challenge : Option Str) (m : SdpMedia) (client : Client) : Bool :=
  match trackUrl target m with
  | .error _ => false
  | .ok url =>
    match trackAuthorization env target url challenge client with
    | .ok _ _ => true
    | .error _ _ => false

/-- The bases of the requests that are built, from the `i`-th section on. -/
def setupBases (challenge : Option Str) : ℕ → List SdpMedia → Client → List UInt8
  | _, [], _ => []
  | i, m :: media, client =>
    if buildsRequest env target challenge m client then
      interleavedBase i ::
        match doSetupTrack env target m (interleavedBase i) challenge client with
        | .ok _ client => setupBases challenge (i + 1) media client
        | .error _ _ => []
    else []

/-- The channels of a pair. -/
def channelPair (interleavedBase : UInt8) : List ℕ :=
  [interleavedBase.toNat, interleavedBase.toNat + 1]

/-- **The channels are safe**: no two pairs share one, and the addition `base + 1` stays in a byte. -/
structure ChannelsSafe (bases : List UInt8) : Prop where
  disjoint : bases.Pairwise fun b c => List.Disjoint (channelPair b) (channelPair c)
  in_range : ∀ b ∈ bases, b.toNat + 1 < 256

/-- Whether the address of a section is accepted. -/
def hasTrackUrl (m : SdpMedia) : Bool := (trackUrl target m).isOk

variable {env target}

theorem hasTrackUrl_of_buildsRequest {challenge : Option Str} {m : SdpMedia} {client : Client}
    (h : buildsRequest env target challenge m client = true) : hasTrackUrl target m = true := by
  rw [buildsRequest] at h
  rw [hasTrackUrl]
  cases hurl : trackUrl target m with
  | ok url => rfl
  | error failure =>
    rw [hurl] at h
    cases h

/-! ## The requests on record -/

/-- An authorization is computed, or is not; nothing is sent for it. -/
theorem trackAuthorization_cases (challenge : Option Str) (url : Str) (client : Client) :
    (∃ auth, trackAuthorization env target url challenge client = .ok auth client) ∨
      ∃ failure, trackAuthorization env target url challenge client = .error failure client := by
  cases challenge with
  | none => exact .inl ⟨none, rfl⟩
  | some wwwAuth =>
    simp only [trackAuthorization, authorization, Functor.map, EStateM.map]
    cases digestAuthHeader env target (env.generateCnonce client.past client.current) .setup url
        wwwAuth with
    | ok header => exact .inl ⟨some header, rfl⟩
    | error failure => exact .inr ⟨failure, rfl⟩

/-- A section for which no request is built fails, and nothing is sent. -/
theorem doSetupTrack_of_not_builds {challenge : Option Str} {m : SdpMedia} {client : Client}
    (h : buildsRequest env target challenge m client = false) (interleavedBase : UInt8) :
    ∃ failure, doSetupTrack env target m interleavedBase challenge client =
      .error failure client := by
  rw [buildsRequest] at h
  cases hurl : trackUrl target m with
  | error failure => exact ⟨failure, by simp only [doSetupTrack, hurl]; rfl⟩
  | ok url =>
    rcases @trackAuthorization_cases env target challenge url client with
      ⟨auth, hauth⟩ | ⟨failure, hauth⟩
    · simp only [hurl, hauth] at h
      cases h
    · refine ⟨failure, ?_⟩
      simp only [doSetupTrack, hurl, bind, EStateM.bind, ofExcept, pure, EStateM.pure, hauth]

/-- A request that is built is sent. -/
theorem doSetupTrack_of_builds {challenge : Option Str} {m : SdpMedia} {client : Client}
    (h : buildsRequest env target challenge m client = true) (interleavedBase : UInt8) :
    ∃ e : Exchange, e.request.headers.getLast? = some (transport interleavedBase) ∧
      (final (doSetupTrack env target m interleavedBase challenge) client).current =
        client.current ++ [e] := by
  rw [buildsRequest] at h
  cases hurl : trackUrl target m with
  | error failure =>
    rw [hurl] at h
    cases h
  | ok url =>
    rcases @trackAuthorization_cases env target challenge url client with
      ⟨auth, hauth⟩ | ⟨failure, hauth⟩
    · -- the exchange is on record, whether or not there is a response
      have hlast : (setupRequest url auth interleavedBase client).headers.getLast? =
          some (transport interleavedBase) := List.getLast?_concat
      simp only [doSetupTrack, final, hurl, bind, EStateM.bind, ofExcept, pure, EStateM.pure, hauth,
        roundTrip]
      cases env.answer client.past client.current
          (setupRequest url auth interleavedBase client).text with
      | error failure => exact ⟨⟨_, none⟩, hlast, rfl⟩
      | ok response =>
        refine ⟨⟨_, some response⟩, hlast, ?_⟩
        dsimp only
        split_ifs
        · rfl
        · simp only [storeSession]
          cases extractHeader response.headers "Session".toList with
          | none => rfl
          | some session => rfl
    · simp only [hurl, hauth] at h
      cases h

/-- **The requests that are sent** are those with the bases that are requested, in their order. -/
theorem setupAllTracks_recorded (challenge : Option Str) (i : ℕ) (media : List SdpMedia)
    (client : Client) :
    ∃ exchanges : Dialogue,
      (final (setupAllTracks env target challenge i media) client).current =
        client.current ++ exchanges ∧
      exchanges.map (fun e => e.request.headers.getLast?) =
        (setupBases env target challenge i media client).map fun b => some (transport b) := by
  induction media generalizing i client with
  | nil => exact ⟨[], (List.append_nil _).symm, rfl⟩
  | cons m media ih =>
    rw [setupBases]
    split_ifs with hbuilds
    · obtain ⟨e, hlast, hcurrent⟩ := doSetupTrack_of_builds hbuilds (interleavedBase i)
      rw [final] at hcurrent
      simp only [setupAllTracks, final, bind, EStateM.bind]
      cases hrun : doSetupTrack env target m (interleavedBase i) challenge client with
      | ok a client' =>
        rw [hrun] at hcurrent
        have hcurrent' : client'.current = client.current ++ [e] := hcurrent
        obtain ⟨exchanges, hrest, hmap⟩ := ih (i + 1) client'
        refine ⟨e :: exchanges, ?_, by rw [List.map_cons, hlast, hmap, List.map_cons]⟩
        rw [List.append_cons, ← hcurrent']
        exact hrest
      | error failure client' =>
        rw [hrun] at hcurrent
        exact ⟨[e], hcurrent, by rw [List.map_cons, hlast]; rfl⟩
    · rw [Bool.not_eq_true] at hbuilds
      obtain ⟨failure, hrun⟩ := doSetupTrack_of_not_builds hbuilds (interleavedBase i)
      refine ⟨[], ?_, rfl⟩
      simp only [setupAllTracks, final, bind, EStateM.bind, hrun, List.append_nil]

/-! ## The bases of the places -/

/-- The bases are those of the first places, of which there are no more than sections with an
accepted address at the beginning. -/
theorem setupBases_eq (challenge : Option Str) (i : ℕ) (media : List SdpMedia) (client : Client) :
    ∃ n ≤ (media.takeWhile (hasTrackUrl target)).length,
      setupBases env target challenge i media client = (List.range' i n).map interleavedBase := by
  induction media generalizing i client with
  | nil => exact ⟨0, Nat.zero_le _, rfl⟩
  | cons m media ih =>
    rw [setupBases]
    split_ifs with hbuilds
    · rw [List.takeWhile_cons_of_pos (hasTrackUrl_of_buildsRequest hbuilds), List.length_cons]
      cases hrun : doSetupTrack env target m (interleavedBase i) challenge client with
      | ok a client' =>
        obtain ⟨n, hle, heq⟩ := ih (i + 1) client'
        exact ⟨n + 1, Nat.succ_le_succ hle, by rw [List.range'_succ, List.map_cons, ← heq]⟩
      | error failure client' => exact ⟨1, Nat.succ_le_succ (Nat.zero_le _), rfl⟩
    · exact ⟨0, Nat.zero_le _, rfl⟩

theorem toNat_interleavedBase {i : ℕ} (h : i < 128) : (interleavedBase i).toNat = 2 * i := by
  rw [interleavedBase, if_pos (by omega), UInt8.toNat_ofNat_of_lt' (by rw [UInt8.size]; omega),
    Nat.mul_comm]

/-- **The pairs of 128 places** are safe. -/
theorem channelsSafe_of_le {n : ℕ} (h : n ≤ 128) :
    ChannelsSafe ((List.range' 0 n).map interleavedBase) := by
  constructor
  · rw [List.pairwise_map]
    refine List.Pairwise.imp_of_mem (fun {i j} hi hj hlt => ?_) List.pairwise_lt_range'
    rw [List.mem_range'_1] at hi hj
    rw [channelPair, channelPair, toNat_interleavedBase (by omega),
      toNat_interleavedBase (by omega), List.disjoint_left]
    simp only [List.mem_cons, List.not_mem_nil, or_false]
    omega
  · simp only [List.mem_map, List.mem_range'_1]
    rintro b ⟨i, hi, rfl⟩
    rw [toNat_interleavedBase (by omega)]
    omega

/-! ## A camera that accepts everything -/

/-- A camera that answers every request with success. -/
def accepting : Environment where
  accepts _ := .ok ()
  answer _ _ _ := .ok ⟨200, [], []⟩
  generateCnonce _ _ := []
  md5Hex := id
  toLowercase := asciiLower

/-- A section with an accepted address is set up. -/
theorem doSetupTrack_accepting {m : SdpMedia} (h : hasTrackUrl target m = true)
    (interleavedBase : UInt8) (client : Client) :
    buildsRequest accepting target none m client = true ∧
      ∃ client', doSetupTrack accepting target m interleavedBase none client =
        .ok () client' := by
  rw [hasTrackUrl] at h
  cases hurl : trackUrl target m with
  | error failure =>
    rw [hurl] at h
    cases h
  | ok url =>
    refine ⟨by rw [buildsRequest, hurl]; rfl, ?_⟩
    refine ⟨client.sent (setupRequest url none interleavedBase client) (some ⟨200, [], []⟩), ?_⟩
    simp only [doSetupTrack, hurl]
    rfl

theorem setupBases_accepting (i : ℕ) (media : List SdpMedia) (client : Client) :
    setupBases accepting target none i media client =
      (List.range' i (media.takeWhile (hasTrackUrl target)).length).map interleavedBase := by
  induction media generalizing i client with
  | nil => rfl
  | cons m media ih =>
    rw [setupBases]
    cases hurl : hasTrackUrl target m with
    | true =>
      obtain ⟨hbuilds, client', hrun⟩ := doSetupTrack_accepting hurl (interleavedBase i) client
      rw [if_pos hbuilds, hrun, List.takeWhile_cons_of_pos hurl, List.length_cons,
        List.range'_succ, List.map_cons]
      exact congrArg _ (ih (i + 1) client')
    | false =>
      have hbuilds : buildsRequest accepting target none m client ≠ true := fun hbuilds =>
        Bool.false_ne_true (hurl.symm.trans (hasTrackUrl_of_buildsRequest hbuilds))
      rw [if_neg hbuilds, List.takeWhile_cons_of_neg (by rw [hurl]; decide)]
      rfl

/-- **The channels are safe** whatever the camera answers, if and only if at most 128 sections come
before one whose address is not accepted. -/
theorem channelsSafe_iff (target : Target) (media : List SdpMedia) :
    (∀ env challenge client, ChannelsSafe (setupBases env target challenge 0 media client)) ↔
      (media.takeWhile (hasTrackUrl target)).length ≤ 128 := by
  constructor
  · intro h
    by_contra hlength
    have hsafe := h accepting none .initial
    rw [setupBases_accepting] at hsafe
    have hlast : interleavedBase 128 ∈
        (List.range' 0 (media.takeWhile (hasTrackUrl target)).length).map interleavedBase :=
      List.mem_map_of_mem (List.mem_range'_1.mpr (by omega))
    exact absurd (hsafe.in_range _ hlast) (by decide)
  · intro h env challenge client
    obtain ⟨n, hle, heq⟩ := @setupBases_eq env target challenge 0 media client
    rw [heq]
    exact channelsSafe_of_le (hle.trans h)

/-! ## A description with too many sections -/

/-- A line that begins a video section. -/
def videoLine : Str := "m=video 0 RTP/AVP 96".toList

theorem lines_videoLines (n : ℕ) :
    lines ((List.replicate n (videoLine ++ "\r\n".toList)).flatten) =
      List.replicate n videoLine := by
  induction n with
  | zero => rfl
  | succ n ih =>
    have hnewline : '\n' ∉ videoLine := by decide
    rw [List.replicate_succ, List.flatten_cons, List.append_assoc]
    exact (lines_crlf hnewline _).trans (congrArg _ ih)

theorem foldl_videoLines (n : ℕ) (media : List SdpMedia) :
    (List.replicate n videoLine).foldl sdpLine media =
      media ++ List.replicate n ⟨.video, 96, none⟩ := by
  induction n generalizing media with
  | zero => exact (List.append_nil media).symm
  | succ n ih =>
    have hmedia : stripPrefix "m=".toList (trim videoLine) = some "video 0 RTP/AVP 96".toList := by
      decide
    have hkind : parseMediaLine "video 0 RTP/AVP 96".toList = some ⟨.video, 96, none⟩ := by
      decide
    have hline : sdpLine media videoLine = media ++ [⟨.video, 96, none⟩] := by
      rw [sdpLine, hmedia]
      exact congrArg (fun m => media ++ m.toList) hkind
    rw [List.replicate_succ, List.foldl_cons, hline, ih, List.replicate_succ, List.append_assoc]
    rfl

/-- **A description with 129 sections** is accepted, and the last one is given a channel behind which
there is none. -/
theorem channels_overflow :
    ∃ sdp media, parseSdpMedia sdp = some media ∧
      (255 : UInt8) ∈ setupBases accepting
        ⟨"192.168.0.10".toList, 554, "videoMain".toList, "admin".toList, []⟩ none 0 media .initial ∧
      ¬ ChannelsSafe (setupBases accepting
        ⟨"192.168.0.10".toList, 554, "videoMain".toList, "admin".toList, []⟩ none 0 media
        .initial) := by
  have hparse : parseSdpMedia (List.replicate 129 (videoLine ++ "\r\n".toList)).flatten =
      some (List.replicate 129 ⟨.video, 96, none⟩) := by
    rw [parseSdpMedia, lines_videoLines, foldl_videoLines]
    rfl
  have haccepted : ∀ target, hasTrackUrl target ⟨.video, 96, none⟩ = true := fun _ => rfl
  have hmem : ∀ target client, (255 : UInt8) ∈
      setupBases accepting target none 0 (List.replicate 129 ⟨.video, 96, none⟩) client := by
    intro target client
    rw [setupBases_accepting, List.takeWhile_replicate, if_pos (haccepted target),
      List.length_replicate]
    exact List.mem_map_of_mem (List.mem_range'_1.mpr ⟨Nat.zero_le 128, by decide⟩)
  refine ⟨_, _, hparse, hmem _ _, fun hsafe => ?_⟩
  exact absurd (hsafe.in_range _ (hmem _ _)) (by decide)

end RtspClient

end Fosipcore
