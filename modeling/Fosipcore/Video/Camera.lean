import Mathlib.Data.List.ModifyLast
import Fosipcore.Video.Authorization
import Fosipcore.Video.Requests
import Fosipcore.Video.SdpSections

/-!
# A camera at the other end

The camera has one user, and tracks that it describes, sets up and plays. It may ask for an
authorization of DESCRIBE, of SETUP, or of both, with a nonce for every connection, and it computes
the response that it expects. A track is set up in the session of its connection, which the first
SETUP opens, on a pair of channels that is free, and only what was set up is played.

The description and the challenge are texts. The client reads in them what the camera has put there.

## Main definitions

* `Track`, `Camera`: what the camera is
* `Camera.respond`, `Camera.answer`: what it does
* `granted`: the tracks that were set up on a connection

## Main results

* `parseSdpMedia_describeTracks`: the description is read back
* `parseChallenge_challengeText`: so is the challenge
-/

namespace Fosipcore

namespace RtspClient

open Text Fallible

/-! ## Tracks and their description -/

def MediaKind.name : MediaKind → Str
  | .video => "video".toList
  | .audio => "audio".toList

/-- A character of the name of a track: one of a token, but no asterisk, or an equals sign. -/
def isTrackChar (c : Char) : Bool := isTokenChar c && c ≠ '*' || c = '='

/-- A track, with a name that is one word. -/
structure Track where
  kind : MediaKind
  payloadType : UInt8
  name : Str
  name_ne_nil : name ≠ []
  isTrackChar_name : ∀ c ∈ name, isTrackChar c = true

namespace Track

/-- What the client reads of a track. -/
def media (track : Track) : SdpMedia := ⟨track.kind, track.payloadType, some track.name⟩

def header (track : Track) : Str :=
  MediaKind.name track.kind ++ ' ' :: ("0".toList ++ ' ' :: ("RTP/AVP".toList ++
    ' ' :: numeral track.payloadType.toNat))

/-- The lines of a track in the description. -/
def lines (track : Track) : List Str :=
  ["m=".toList ++ track.header, "a=control:".toList ++ track.name]

end Track

/-- The description of tracks. -/
def describeTracks (tracks : List Track) : Str :=
  (["v=0".toList, "a=control:*".toList] ++ tracks.flatMap Track.lines).flatMap fun line =>
    line ++ ['\r', '\n']

theorem isTrackChar_plain {c : Char} (h : isTrackChar c = true) :
    isWhitespace c = false ∧ c ∉ ['\"', '/', '*', '\n'] := by
  rw [isTrackChar, Bool.or_eq_true, Bool.and_eq_true, decide_eq_true_eq, decide_eq_true_eq] at h
  rcases h with ⟨htoken, hstar⟩ | rfl
  · refine ⟨(isTokenChar_plain htoken).1, fun hmem => ?_⟩
    simp only [List.mem_cons, List.not_mem_nil, or_false] at hmem
    rcases hmem with rfl | rfl | rfl | rfl
    · revert htoken
      decide
    · revert htoken
      decide
    · exact hstar rfl
    · revert htoken
      decide
  · decide

namespace Track

variable (track : Track)

theorem oneLine_name : OneLine track.name :=
  fun hmem => (isTrackChar_plain (track.isTrackChar_name _ hmem)).2 (by decide)

theorem splitWhitespace_header : splitWhitespace track.header =
    [MediaKind.name track.kind, "0".toList, "RTP/AVP".toList, numeral track.payloadType.toNat] := by
  have hkind : MediaKind.name track.kind ≠ [] ∧
      ∀ c ∈ MediaKind.name track.kind, isWhitespace c = false := by
    cases track.kind <;> exact ⟨by decide, forall_of_all (by decide)⟩
  have hnumeral : numeral track.payloadType.toNat ≠ [] := Nat.toDigits_ne_nil
  rw [header, splitWhitespace_cons hkind.1 hkind.2,
    splitWhitespace_cons (by decide) (forall_of_all (by decide)),
    splitWhitespace_cons (by decide) (forall_of_all (by decide)),
    splitWhitespace_word hnumeral fun _ => isWhitespace_of_mem_numeral]

theorem oneLine_header : OneLine track.header := by
  have hkind : OneLine (MediaKind.name track.kind) := by
    cases track.kind <;> decide
  have hfixed : OneLine "0".toList ∧ OneLine "RTP/AVP".toList := by decide
  exact hkind.append (.cons (by decide) (hfixed.1.append (.cons (by decide) (hfixed.2.append
    (.cons (by decide) (oneLine_numeral _))))))

theorem oneLine_lines : ∀ line ∈ track.lines, OneLine line := by
  have hfixed : OneLine "m=".toList ∧ OneLine "a=control:".toList := by decide
  intro line hline
  rcases List.mem_cons.mp hline with rfl | hline
  · exact hfixed.1.append track.oneLine_header
  · rw [List.mem_singleton.mp hline]
    exact hfixed.2.append track.oneLine_name

/-- The line of a track ends with a digit. -/
theorem trim_mediaLine : trim ("m=".toList ++ track.header) = "m=".toList ++ track.header := by
  refine trim_of_ends ?_ fun c hc => ?_
  · rintro c ⟨⟩
    decide
  · have hne : numeral track.payloadType.toNat ≠ [] := Nat.toDigits_ne_nil
    have hline : "m=".toList ++ track.header = ("m=".toList ++ MediaKind.name track.kind ++
        (' ' :: "0".toList ++ (' ' :: "RTP/AVP".toList ++ [' ']))) ++
          numeral track.payloadType.toNat := by
      rw [header]
      generalize "m=".toList = start
      generalize "0".toList = port
      generalize "RTP/AVP".toList = protocol
      simp
    rw [hline, List.getLast?_append_of_ne_nil _ hne] at hc
    exact isWhitespace_of_mem_numeral (List.mem_of_getLast? hc)

theorem trim_name : trim track.name = track.name :=
  trim_eq_self fun c hc => (isTrackChar_plain (track.isTrackChar_name c hc)).1

/-- The control line ends with the name. -/
theorem trim_controlLine :
    trim ("a=control:".toList ++ track.name) = "a=control:".toList ++ track.name := by
  refine trim_of_ends ?_ fun c hc => ?_
  · rintro c ⟨⟩
    decide
  · rw [List.getLast?_append_of_ne_nil _ track.name_ne_nil] at hc
    exact (isTrackChar_plain (track.isTrackChar_name c (List.mem_of_getLast? hc))).1

theorem parseMediaLine_header :
    parseMediaLine track.header = some ⟨track.kind, track.payloadType, none⟩ := by
  have hpayload : parseUnsigned 255 (numeral track.payloadType.toNat) =
      some track.payloadType.toNat :=
    parseUnsigned_numeral (Nat.le_of_lt_succ track.payloadType.toNat_lt)
  have hkind : track.kind = .video ∨ track.kind = .audio := by
    cases track.kind <;> simp
  rw [parseMediaLine, splitWhitespace_header]
  simp only [List.getElem?_cons_succ, List.getElem?_cons_zero, Option.bind_some, hpayload,
    Option.map_some, Option.getD_some, UInt8.ofNat_toNat, List.head?_cons, Option.some_inj]
  rcases hkind with hkind | hkind
  · rw [hkind]
    exact if_pos rfl
  · have hne : "audio".toList ≠ "video".toList := by decide
    rw [hkind]
    exact (if_neg hne).trans (if_pos rfl)

/-- The lines of a track add it. -/
theorem foldl_lines (media : List SdpMedia) :
    track.lines.foldl sdpLine media = media ++ [track.media] := by
  have hmediaLine : sdpLine media ("m=".toList ++ track.header) =
      media ++ [⟨track.kind, track.payloadType, none⟩] := by
    rw [sdpLine, trim_mediaLine, stripPrefix_append]
    dsimp only
    rw [parseMediaLine_header]
    rfl
  have hcontrolLine : ∀ last : SdpMedia,
      sdpLine (media ++ [last]) ("a=control:".toList ++ track.name) =
        media ++ [{ last with control := some track.name }] := by
    intro last
    have hno : stripPrefix "m=".toList ("a=control:".toList ++ track.name) = none := rfl
    have hstar : ¬ (track.name = [] ∨ track.name = ['*']) := by
      rintro (hnil | hstar)
      · exact track.name_ne_nil hnil
      · exact (isTrackChar_plain (track.isTrackChar_name '*' (hstar ▸ List.mem_cons_self))).2
          (by decide)
    rw [sdpLine, trim_controlLine, hno]
    dsimp only
    rw [stripPrefix_append]
    dsimp only
    rw [trim_name, if_neg hstar]
    exact List.modifyLast_concat _ _ _
  rw [lines, List.foldl_cons, hmediaLine, List.foldl_cons, hcontrolLine]
  rfl

end Track

/-- **The description is read back.** -/
theorem parseSdpMedia_describeTracks {tracks : List Track} (h : tracks ≠ []) :
    parseSdpMedia (describeTracks tracks) = some (tracks.map Track.media) := by
  have hfixed : ∀ line ∈ ["v=0".toList, "a=control:*".toList], OneLine line := by decide
  have hlines : lines (describeTracks tracks) =
      ["v=0".toList, "a=control:*".toList] ++ tracks.flatMap Track.lines := by
    have hread := @lines_flatMap (["v=0".toList, "a=control:*".toList] ++
      tracks.flatMap Track.lines) ?_ []
    · rw [List.append_nil] at hread
      exact hread.trans (List.append_nil _)
    · intro line hline
      rcases List.mem_append.mp hline with hline | hline
      · exact hfixed line hline
      · obtain ⟨track, -, hline⟩ := List.mem_flatMap.mp hline
        exact track.oneLine_lines line hline
  have hfold : ∀ (tracks : List Track) (media : List SdpMedia),
      (tracks.flatMap Track.lines).foldl sdpLine media = media ++ tracks.map Track.media := by
    intro tracks
    induction tracks with
    | nil => exact fun media => (List.append_nil media).symm
    | cons track tracks ih =>
      intro media
      rw [List.flatMap_cons, List.foldl_append, track.foldl_lines, ih, List.map_cons,
        List.append_assoc, List.singleton_append]
  have hsession : ["v=0".toList, "a=control:*".toList].foldl sdpLine [] = [] := by decide
  obtain ⟨track, tracks, rfl⟩ := List.exists_cons_of_ne_nil h
  rw [parseSdpMedia, hlines, List.foldl_append, hsession, hfold, List.nil_append, List.map_cons]

/-! ## The camera -/

/-- A text that can be a quoted value of a challenge, and is not mistaken for a parameter. -/
def IsQuotable (s : Str) : Prop := ∀ c ∈ s, c.toNat < 128 ∧ c ∉ ['\"', '=', '\n']

theorem IsQuotable.not_mem {s : Str} (h : IsQuotable s) : '\"' ∉ s :=
  fun hmem => (h _ hmem).2 (by decide)

theorem isName_realm : IsName "realm".toList := by decide

theorem isName_nonce : IsName "nonce".toList := by decide

theorem isName_qop : IsName "qop".toList := by decide

theorem quote_not_mem_auth : '\"' ∉ "auth".toList := by decide

/-- The camera: its address, its user, what it asks an authorization for, its tracks, and a nonce and
a session for every connection. -/
structure Camera where
  url : Str
  account : Account
  nonce : ℕ → Str
  session : ℕ → Str
  qop : Bool
  guardsDescribe : Bool
  guardsSetup : Bool
  tracks : List Track
  md5Hex : Str → Str
  isQuotable_realm : IsQuotable account.realm
  isQuotable_nonce : ∀ n, IsQuotable (nonce n)
  isToken_session : ∀ n, IsToken (session n)

def Request.header (request : Request) (name : Str) : Option Str := request.headers.lookup name

/-- The channel that a SETUP asks for, with the one behind it. -/
def Request.channel (request : Request) : Option ℕ := do
  let value ← request.header "Transport".toList
  let range ← stripPrefix "RTP/AVP/TCP;unicast;interleaved=".toList value
  let (first, last) ← splitOnce ['-'] range
  let first ← parseUnsigned 255 first
  let last ← parseUnsigned 255 last
  if last = first + 1 then some first else none

/-- The address and the channel of an accepted SETUP. -/
def Exchange.grant (e : Exchange) : Option (Str × ℕ) :=
  if e.request.method = .setup ∧ e.response.map Response.statusCode = some 200 then
    e.request.channel.map fun channel => (e.request.url, channel)
  else none

/-- **The tracks that were set up** on a connection, with their channels. -/
def granted (dialogue : Dialogue) : List (Str × ℕ) := dialogue.filterMap Exchange.grant

namespace Camera

variable (camera : Camera)

/-- The address of a track: its name behind that of the camera. -/
def address (track : Track) : Str :=
  camera.url ++ (if ['/'].isSuffixOf camera.url then [] else ['/']) ++ track.name

/-- The addresses of tracks, with the channels that they are to have. -/
def allotted (tracks : List Track) : List (Str × ℕ) :=
  tracks.zipIdx.map fun (track, i) => (camera.address track, 2 * i)

/-- The authorization of a request on the connection `n` is accepted. -/
def authorizes (n : ℕ) (request : Request) : Bool :=
  ((request.header "Authorization".toList).bind DigestHeader.read).any fun header =>
    header.Vouches camera.md5Hex camera.account (camera.nonce n) request.method request.url

/-- The parameters of the challenge on the connection `n`. -/
def challengeParams (n : ℕ) : List AuthParam :=
  [quotedParam isName_realm camera.isQuotable_realm.not_mem,
    quotedParam isName_nonce (camera.isQuotable_nonce n).not_mem] ++
    if camera.qop then [quotedParam isName_qop quote_not_mem_auth] else []

def challengeText (n : ℕ) : Str := RtspClient.challengeText (camera.challengeParams n)

def unauthorized (n : ℕ) : Response :=
  ⟨401, "WWW-Authenticate: ".toList ++ camera.challengeText n ++ "\r\n".toList, []⟩

/-- A track is set up in the session of the connection, on a channel that is free. -/
def setup (n : ℕ) (current : Dialogue) (request : Request) : Response :=
  if request.url ∉ camera.tracks.map camera.address then ⟨404, [], []⟩
  else if request.header "Session".toList ≠
      (if granted current = [] then none else some (camera.session n)) then ⟨454, [], []⟩
  else if request.channel.any (· ∉ (granted current).map Prod.snd) then
    ⟨200, "Session: ".toList ++ camera.session n ++ "\r\n".toList, []⟩
  else ⟨461, [], []⟩

/-- The answer to a request on the connection `n`, after the dialogue on it. -/
def respond (n : ℕ) (current : Dialogue) (request : Request) : Response :=
  match request.method with
  | .options => ⟨200, [], []⟩
  | .describe =>
    if camera.guardsDescribe ∧ camera.authorizes n request = false then camera.unauthorized n
    else if request.url = camera.url then ⟨200, [], describeTracks camera.tracks⟩
    else ⟨404, [], []⟩
  | .setup =>
    if camera.guardsSetup ∧ camera.authorizes n request = false then camera.unauthorized n
    else camera.setup n current request
  | .play =>
    -- what was set up is played in its session
    if granted current ≠ [] ∧ request.header "Session".toList = some (camera.session n) then
      ⟨200, [], []⟩
    else ⟨454, [], []⟩

/-- The answer to a text, if it is a request. -/
def answer (n : ℕ) (current : Dialogue) (text : Str) : Response :=
  match Request.read text with
  | some request => camera.respond n current request
  | none => ⟨400, [], []⟩

/-- The client has the credentials of the user. -/
def knows (target : Target) : Prop :=
  target.user = camera.account.user ∧ target.pwd = camera.account.pwd

end Camera

/-! ## Reading the answers -/

variable {camera : Camera}

/-- A header is read from a block that it is alone in. -/
theorem extractHeader_line {name value : Str} (hname : ':' ∉ name) (hline : OneLine name)
    (htrim : trim name = name) (hvalue : OneLine value) (hblank : trim value = value) :
    extractHeader (name ++ ": ".toList ++ value ++ "\r\n".toList) name = some value := by
  have hblock : name ++ ": ".toList ++ value ++ "\r\n".toList =
      (name ++ ':' :: ' ' :: value) ++ '\r' :: '\n' :: [] := by
    have hcolon : ": ".toList = [':', ' '] := rfl
    have hend : "\r\n".toList = ['\r', '\n'] := rfl
    rw [hcolon, hend]
    simp
  rw [extractHeader, hblock, lines_crlf (hline.append (.cons (by decide) (.cons (by decide) hvalue)))]
  have hrest : lines [] = [] := rfl
  rw [hrest, List.findSome?_singleton, splitOnce_char _ hname, Option.bind_eq_bind,
    Option.bind_some]
  dsimp only
  rw [htrim, if_pos rfl, trim_blank, hblank]

/-- A quotable text has no equals sign, in lower case as well. -/
theorem IsQuotable.equals_not_mem {s : Str} (h : IsQuotable s) : '=' ∉ asciiLower s := by
  have hascii : ∀ n < 128, (Char.ofNat n).toLower = '=' → Char.ofNat n = '=' := by decide +kernel
  intro hmem
  obtain ⟨c, hc, hlower⟩ := List.mem_map.mp hmem
  have hchar := hascii c.toNat (h c hc).1
  rw [Char.ofNat_toNat] at hchar
  obtain rfl := hchar hlower
  exact (h _ hc).2 (by decide)

theorem isQuotable_auth : IsQuotable "auth".toList := forall_of_all (by decide)

/-- The parameters of a challenge have one of three names, and quotable values. -/
theorem challengeParams_cases {n : ℕ} {p : AuthParam} (hp : p ∈ camera.challengeParams n) :
    p.name ∈ ["realm".toList, "nonce".toList, "qop".toList] ∧ IsQuotable p.value := by
  rcases List.mem_append.mp hp with hp | hp
  · rcases List.mem_cons.mp hp with rfl | hp
    · exact ⟨List.mem_cons_self, camera.isQuotable_realm⟩
    · rw [List.mem_singleton.mp hp]
      exact ⟨List.mem_cons_of_mem _ List.mem_cons_self, camera.isQuotable_nonce n⟩
  · split_ifs at hp
    · rw [List.mem_singleton.mp hp]
      exact ⟨List.mem_cons_of_mem _ (List.mem_cons_of_mem _ List.mem_cons_self), isQuotable_auth⟩
    · cases hp

/-- What stands in front of a parameter is ASCII, on one line. -/
theorem plain_front {params : List AuthParam} (h : ∀ p ∈ params, IsQuotable p.value) :
    ∀ c ∈ front params, c.toNat < 128 ∧ c ≠ '\n' := by
  have hfixed : (∀ c ∈ "Digest ".toList, c.toNat < 128 ∧ c ≠ '\n') ∧
      (∀ c ∈ ", ".toList, c.toNat < 128 ∧ c ≠ '\n') ∧
      ∀ c ∈ ['\"', '='], c.toNat < 128 ∧ c ≠ '\n' :=
    ⟨forall_of_all (by decide), forall_of_all (by decide), forall_of_all (by decide)⟩
  obtain ⟨hscheme, hsep, hsigns⟩ := hfixed
  have hvalue : ∀ p ∈ params, ∀ c ∈ p.value, c.toNat < 128 ∧ c ≠ '\n' := by
    intro p hp c hc
    refine ⟨(h p hp c hc).1, ?_⟩
    rintro rfl
    exact (h p hp _ hc).2 (by decide)
  intro c hc
  rcases List.mem_append.mp hc with hc | hc
  · exact hscheme c hc
  obtain ⟨p, hp, hc⟩ := List.mem_flatMap.mp hc
  rcases List.mem_append.mp hc with hc | hc
  · rcases List.mem_append.mp hc with hc | hc
    · have htoken := p.is_name.1.isTokenChar hc
      refine ⟨isTokenChar_lt htoken, ?_⟩
      rintro rfl
      exact (isTokenChar_plain htoken).2 (by decide)
    · rcases List.mem_cons.mp hc with rfl | hc
      · exact hsigns _ (List.mem_cons_of_mem _ List.mem_cons_self)
      · rw [AuthParam.valueText] at hc
        split_ifs at hc
        · rcases List.mem_append.mp hc with hc | hc
          · rcases List.mem_cons.mp hc with rfl | hc
            · exact hsigns _ List.mem_cons_self
            · exact hvalue p hp c hc
          · rw [List.mem_singleton.mp hc]
            exact hsigns _ List.mem_cons_self
        · exact hvalue p hp c hc
  · exact hsep c hc

theorem IsQuotable.not_occurs {s name : Str} (h : IsQuotable s) :
    ¬ name ++ ['='] <:+: asciiLower s :=
  fun hfound => h.equals_not_mem (hfound.subset (List.mem_append_right name List.mem_cons_self))

section Read

variable {env : Environment} (hlower : Lowers env.toLowercase) {params before after : List AuthParam}
  (hquotable : ∀ p ∈ params, IsQuotable p.value)

include hlower hquotable

/-- A parameter is read if no name in front of it ends with its own. -/
theorem extractAuthParam_some {p : AuthParam} (hparams : params = before ++ p :: after)
    (hnames : ∀ q ∈ before, ¬ p.name <:+ q.name) :
    extractAuthParam env (challengeText params) p.name = .ok (some p.value) := by
  subst hparams
  have hbefore : ∀ q ∈ before, IsQuotable q.value :=
    fun q hq => hquotable q (List.mem_append_left _ hq)
  refine extractAuthParam_located hlower ?_ after
  refine (located_iff_of_ascii hlower p.is_name fun c hc =>
    (plain_front hbefore c hc).1).mpr fun q hq => ?_
  exact ⟨hnames q hq, (hbefore q hq).not_occurs⟩

/-- A parameter is not read if no name ends with its own. -/
theorem extractAuthParam_none {name : Str} (hname : IsName name)
    (hnames : ∀ q ∈ params, ¬ name <:+ q.name) :
    extractAuthParam env (challengeText params) name = .ok none := by
  refine (extractAuthParam_none_iff hlower hname _).mpr ?_
  refine absent_of_ascii hlower hname (fun c hc => ?_) fun q hq => ?_
  · exact (plain_front hquotable c ((prefix_challengeText params).subset hc)).1
  · exact ⟨hnames q hq, (hquotable q hq).not_occurs⟩

end Read

/-- **The challenge is read back.** -/
theorem parseChallenge_challengeText {env : Environment} (hlower : Lowers env.toLowercase) (n : ℕ) :
    parseChallenge env (camera.challengeText n) =
      .ok (camera.account.challenge (camera.nonce n) camera.qop) := by
  have hquotable : ∀ p ∈ camera.challengeParams n, IsQuotable p.value :=
    fun p hp => (challengeParams_cases hp).2
  have hnames : ∀ {name : Str}, (∀ other ∈ ["realm".toList, "nonce".toList, "qop".toList],
      ¬ name <:+ other) → ∀ p ∈ camera.challengeParams n, ¬ name <:+ p.name :=
    fun hname p hp => hname p.name (challengeParams_cases hp).1
  have hparams : camera.challengeParams n =
      quotedParam isName_realm camera.isQuotable_realm.not_mem ::
        quotedParam isName_nonce (camera.isQuotable_nonce n).not_mem ::
          if camera.qop then [quotedParam isName_qop quote_not_mem_auth] else [] := rfl
  have hrealm : extractAuthParam env (camera.challengeText n) "realm".toList =
      .ok (some camera.account.realm) :=
    extractAuthParam_some hlower hquotable (hparams.trans (List.nil_append _).symm)
      (List.forall_mem_nil _)
  have hnonce : extractAuthParam env (camera.challengeText n) "nonce".toList =
      .ok (some (camera.nonce n)) := by
    have hsuffix : ¬ "nonce".toList <:+ "realm".toList := by decide
    refine extractAuthParam_some hlower hquotable
      (hparams.trans (List.singleton_append (l := _ :: _)).symm) fun q hq => ?_
    rw [List.mem_singleton.mp hq]
    exact hsuffix
  have hfixed : (IsName "opaque".toList ∧
      ∀ other ∈ ["realm".toList, "nonce".toList, "qop".toList], ¬ "opaque".toList <:+ other) ∧
      IsName "algorithm".toList ∧
      ∀ other ∈ ["realm".toList, "nonce".toList, "qop".toList], ¬ "algorithm".toList <:+ other := by
    decide
  have hopaqueValue := extractAuthParam_none hlower hquotable hfixed.1.1 (hnames hfixed.1.2)
  have halgorithm := extractAuthParam_none hlower hquotable hfixed.2.1 (hnames hfixed.2.2)
  have hqop : extractAuthParam env (camera.challengeText n) "qop".toList =
        .ok (if camera.qop then some "auth".toList else none) := by
    have hsuffix : ¬ "qop".toList <:+ "realm".toList ∧ ¬ "qop".toList <:+ "nonce".toList := by
      decide
    have hnot : ∀ q ∈ [quotedParam isName_realm camera.isQuotable_realm.not_mem,
        quotedParam isName_nonce (camera.isQuotable_nonce n).not_mem], ¬ "qop".toList <:+ q.name := by
      intro q hq
      rcases List.mem_cons.mp hq with rfl | hq
      · exact hsuffix.1
      · rw [List.mem_singleton.mp hq]
        exact hsuffix.2
    cases hcamera : camera.qop with
    | true =>
      rw [hcamera, if_pos rfl] at hparams
      exact extractAuthParam_some hlower hquotable
        (p := quotedParam isName_qop quote_not_mem_auth) (hparams.trans rfl) hnot
    | false =>
      rw [hcamera, if_neg Bool.false_ne_true] at hparams
      refine extractAuthParam_none hlower hquotable isName_qop ?_
      rw [hparams]
      exact hnot
  rw [Camera.challengeText] at hrealm hnonce hqop ⊢
  rw [parseChallenge, hrealm, hnonce, hopaqueValue, hqop, halgorithm]
  rfl

end RtspClient

end Fosipcore
