import Fosipcore.Video.Handshake

/-!
# Digest responses at the server

The header that answers a Digest challenge carries the response and the fields it was computed
from. A server computes the response again from these fields, by a formula that they select: with
a `qop` the client nonce and the nonce count go into the hash, and `MD5-sess` changes the hash of
the credentials. The client selects its formula from the challenge instead, and it does not know
the one for `MD5-sess`.

## Main definitions

* `Challenge`, `parseChallenge`: what the client reads in a challenge
* `DigestHeader`, `Challenge.answer`: the fields of the header that answers it
* `DigestHeader.Verifies`: the response is the one that the server computes

## Main results

* `digestAuthHeader_eq`: the header is the text of these fields
* `verifies_of_answerable`, `not_verifies`: the challenges whose answer verifies
-/

namespace Fosipcore

namespace RtspClient

open Text

/-! ## The fields of a header -/

/-- The parameters of a challenge. -/
structure Challenge where
  realm : Str
  nonce : Str
  opaqueValue : Option Str
  qop : Option Str
  algorithm : Option Str
  deriving DecidableEq

/-- The fields that go with a quality of protection. -/
structure QopFields where
  qop : Str
  cnonce : Str
  nc : Str

/-- The fields of an `Authorization` header. -/
structure DigestHeader where
  username : Str
  realm : Str
  nonce : Str
  uri : Str
  response : Str
  algorithm : Option Str
  opaqueValue : Option Str
  qopFields : Option QopFields

/-- The text of a header. -/
def DigestHeader.text (header : DigestHeader) : Str :=
  "Digest username=".toList ++ quoted header.username ++
    ", realm=".toList ++ quoted header.realm ++ ", nonce=".toList ++ quoted header.nonce ++
    ", uri=".toList ++ quoted header.uri ++ ", response=".toList ++ quoted header.response ++
    (header.algorithm.elim [] fun algo => ", algorithm=".toList ++ algo) ++
    (header.opaqueValue.elim [] fun value => ", opaque=".toList ++ quoted value) ++
    (header.qopFields.elim [] fun fields =>
      ", qop=".toList ++ fields.qop ++ ", cnonce=".toList ++ quoted fields.cnonce ++
        ", nc=".toList ++ fields.nc)

/-- Read the parameters of a challenge. The realm and the nonce have to be there. -/
def parseChallenge (env : Environment) (wwwAuth : Str) : Except Failure Challenge := do
  let some realm ← extractAuthParam env wwwAuth "realm".toList | throw .failed
  let some nonce ← extractAuthParam env wwwAuth "nonce".toList | throw .failed
  let opaqueValue ← extractAuthParam env wwwAuth "opaque".toList
  let qop ← extractAuthParam env wwwAuth "qop".toList
  let algorithm ← extractAuthParam env wwwAuth "algorithm".toList
  return ⟨realm, nonce, opaqueValue, qop, algorithm⟩

/-- The parameters of a challenge that is read are extracted from it. -/
theorem extractAuthParam_of_parseChallenge {env : Environment} {wwwAuth : Str}
    {challenge : Challenge} (h : parseChallenge env wwwAuth = .ok challenge) :
    extractAuthParam env wwwAuth "realm".toList = .ok (some challenge.realm) ∧
      extractAuthParam env wwwAuth "nonce".toList = .ok (some challenge.nonce) ∧
      extractAuthParam env wwwAuth "opaque".toList = .ok challenge.opaqueValue ∧
      extractAuthParam env wwwAuth "qop".toList = .ok challenge.qop ∧
      extractAuthParam env wwwAuth "algorithm".toList = .ok challenge.algorithm := by
  rw [parseChallenge] at h
  rcases hrealm : extractAuthParam env wwwAuth "realm".toList with failure | _ | realm <;>
    rw [hrealm] at h
  · cases h
  · cases h
  rcases hnonce : extractAuthParam env wwwAuth "nonce".toList with failure | _ | nonce <;>
    rw [hnonce] at h
  · cases h
  · cases h
  rcases hopaqueValue : extractAuthParam env wwwAuth "opaque".toList with failure | opaqueValue <;>
    rw [hopaqueValue] at h
  · cases h
  rcases hqop : extractAuthParam env wwwAuth "qop".toList with failure | qop <;> rw [hqop] at h
  · cases h
  rcases halgorithm : extractAuthParam env wwwAuth "algorithm".toList with failure | algorithm <;>
    rw [halgorithm] at h
  · cases h
  obtain rfl := Except.ok.inj h
  exact ⟨rfl, rfl, rfl, rfl, rfl⟩

/-- The quality of protection is `auth` alone. -/
def Challenge.asksForAuth (challenge : Challenge) : Prop :=
  challenge.qop = some "auth".toList ∨ challenge.qop = some (quoted "auth".toList)

instance (challenge : Challenge) : Decidable challenge.asksForAuth :=
  inferInstanceAs (Decidable (_ ∨ _))

/-- The fields of the header that answers a challenge. -/
def Challenge.answer (md5Hex : Str → Str) (target : Target) (cnonce : Str) (method : Method)
    (uri : Str) (challenge : Challenge) : DigestHeader :=
  let nc := "00000001".toList
  let ha1 := md5Hex (colons [target.user, challenge.realm, target.pwd])
  let ha2 := md5Hex (colons [method.name, uri])
  { username := target.user
    realm := challenge.realm
    nonce := challenge.nonce
    uri := uri
    response :=
      if challenge.asksForAuth then
        md5Hex (colons [ha1, challenge.nonce, nc, cnonce, "auth".toList, ha2])
      else md5Hex (colons [ha1, challenge.nonce, ha2])
    algorithm := challenge.algorithm.map trimQuotes
    opaqueValue := challenge.opaqueValue.map trimQuotes
    qopFields := challenge.qop.map fun _ => ⟨"auth".toList, cnonce, nc⟩ }

/-- **The header** is the text of the fields that answer the challenge. -/
theorem digestAuthHeader_eq (env : Environment) (target : Target) (cnonce : Str)
    (method : Method) (uri wwwAuth : Str) :
    digestAuthHeader env target cnonce method uri wwwAuth =
      (parseChallenge env wwwAuth).map fun challenge =>
        (challenge.answer env.md5Hex target cnonce method uri).text := by
  have hauth : ", qop=auth, cnonce=".toList =
      ", qop=".toList ++ "auth".toList ++ ", cnonce=".toList := by decide
  rw [digestAuthHeader, parseChallenge]
  -- each parameter in turn: the first that cannot be read ends both
  rcases extractAuthParam env wwwAuth "realm".toList with failure | _ | realm
  · rfl
  · rfl
  rcases extractAuthParam env wwwAuth "nonce".toList with failure | _ | nonce
  · rfl
  · rfl
  rcases extractAuthParam env wwwAuth "opaque".toList with failure | opaqueValue
  · rfl
  rcases extractAuthParam env wwwAuth "qop".toList with failure | qop
  · rfl
  rcases extractAuthParam env wwwAuth "algorithm".toList with failure | algorithm
  · rfl
  rw [hauth]
  cases algorithm <;> cases opaqueValue <;> cases qop <;> rfl

/-! ## The server -/

namespace DigestHeader

/-- The hash of the credentials: `MD5-sess` adds the nonces, and needs that of the client. -/
def ha1 (md5Hex : Str → Str) (pwd : Str) (header : DigestHeader) : Option Str :=
  let credentials := md5Hex (colons [header.username, header.realm, pwd])
  if header.algorithm = some "MD5-sess".toList then
    header.qopFields.map fun fields => md5Hex (colons [credentials, header.nonce, fields.cnonce])
  else some credentials

/-- The response that a server computes from the fields of a header, for a user with the given
password. Without a `qop` it is the one of RFC 2069. -/
def expectedResponse (md5Hex : Str → Str) (pwd : Str) (method : Method) (header : DigestHeader) :
    Option Str :=
  let ha2 := md5Hex (colons [method.name, header.uri])
  (header.ha1 md5Hex pwd).map fun ha1 =>
    match header.qopFields with
    | none => md5Hex (colons [ha1, header.nonce, ha2])
    | some fields =>
      md5Hex (colons [ha1, header.nonce, fields.nc, fields.cnonce, fields.qop, ha2])

/-- **The server accepts the response** of a header. -/
def Verifies (md5Hex : Str → Str) (pwd : Str) (method : Method) (header : DigestHeader) : Prop :=
  header.expectedResponse md5Hex pwd method = some header.response

end DigestHeader

/-- The client answers with the formula of the header it sends. -/
def Challenge.Answerable (challenge : Challenge) : Prop :=
  (challenge.qop = none ∨ challenge.asksForAuth) ∧
    challenge.algorithm.map trimQuotes ≠ some "MD5-sess".toList

/-! ## The challenges whose answer verifies -/

section Answer

variable {challenge : Challenge} (target : Target) (cnonce : Str) (method : Method) (uri : Str)

/-- Where the formulas agree, the server computes what the client did. -/
theorem verifies_of_answerable (h : challenge.Answerable) (md5Hex : Str → Str) :
    (challenge.answer md5Hex target cnonce method uri).Verifies md5Hex target.pwd method := by
  obtain ⟨hqop, halgorithm⟩ := h
  have hha1 : (challenge.answer md5Hex target cnonce method uri).ha1 md5Hex target.pwd =
      some (md5Hex (colons [target.user, challenge.realm, target.pwd])) := if_neg halgorithm
  rw [DigestHeader.Verifies, DigestHeader.expectedResponse, hha1, Option.map_some]
  rcases hqop with hqop | hauth
  · have hno : ¬ challenge.asksForAuth := by
      rintro (hauth | hauth)
      · rw [hqop] at hauth
        cases hauth
      · rw [hqop] at hauth
        cases hauth
    have hfields : (challenge.answer md5Hex target cnonce method uri).qopFields = none :=
      congrArg (Option.map _) hqop
    rw [hfields]
    exact congrArg some (if_neg hno).symm
  · obtain ⟨qop, hqop⟩ : ∃ qop, challenge.qop = some qop :=
      hauth.elim (fun h => ⟨_, h⟩) fun h => ⟨_, h⟩
    have hfields : (challenge.answer md5Hex target cnonce method uri).qopFields =
        some ⟨"auth".toList, cnonce, "00000001".toList⟩ := congrArg (Option.map _) hqop
    rw [hfields]
    exact congrArg some (if_pos hauth).symm

theorem length_colons_cons (a b : Str) (rest : List Str) :
    (colons (a :: b :: rest)).length = a.length + 1 + (colons (b :: rest)).length := by
  simp [colons, List.intercalate]
  omega

theorem length_colons_singleton (a : Str) : (colons [a]).length = a.length := by
  simp [colons, List.intercalate]

variable {md5Hex : Str → Str} (hlength : ∀ s, (md5Hex s).length = s.length)

include hlength

/-- The server hashes no less of the credentials than the client does, and more for `MD5-sess`. -/
theorem length_le_ha1 {ha1 : Str}
    (h : (challenge.answer md5Hex target cnonce method uri).ha1 md5Hex target.pwd = some ha1) :
    (colons [target.user, challenge.realm, target.pwd]).length ≤ ha1.length ∧
      (challenge.algorithm.map trimQuotes = some "MD5-sess".toList →
        (colons [target.user, challenge.realm, target.pwd]).length < ha1.length) := by
  by_cases hsess : challenge.algorithm.map trimQuotes = some "MD5-sess".toList
  · have hha1 := (if_pos hsess).symm.trans h
    obtain ⟨fields, -, rfl⟩ := Option.map_eq_some_iff.mp hha1
    have hcolons := length_colons_cons
      (md5Hex (colons [target.user, challenge.realm, target.pwd])) challenge.nonce [fields.cnonce]
    rw [hlength] at hcolons
    have hlt : (colons [target.user, challenge.realm, target.pwd]).length <
        (md5Hex (colons [md5Hex (colons [target.user, challenge.realm, target.pwd]),
          challenge.nonce, fields.cnonce])).length := by
      rw [hlength]
      omega
    exact ⟨hlt.le, fun _ => hlt⟩
  · have hha1 := (if_neg hsess).symm.trans h
    obtain rfl := Option.some.inj hha1
    exact ⟨(hlength _).ge, fun hyes => absurd hyes hsess⟩

/-- Where they do not agree, the texts that are hashed have different lengths, and a hash that keeps
the lengths tells them apart. -/
theorem not_verifies (h : ¬ challenge.Answerable) :
    ¬ (challenge.answer md5Hex target cnonce method uri).Verifies md5Hex target.pwd method := by
  intro hverifies
  obtain ⟨ha1, hha1, hresponse⟩ := Option.map_eq_some_iff.mp hverifies
  obtain ⟨hle, hsess⟩ := length_le_ha1 target cnonce method uri hlength hha1
  cases hqop : challenge.qop with
  | none =>
    -- `MD5-sess` needs the client nonce, which is not in the header
    have hmd5 : challenge.algorithm.map trimQuotes = some "MD5-sess".toList :=
      not_not.mp fun hno => h ⟨Or.inl hqop, hno⟩
    have hfields : (challenge.answer md5Hex target cnonce method uri).qopFields = none :=
      congrArg (Option.map _) hqop
    have hmap := (if_pos hmd5).symm.trans hha1
    rw [hfields] at hmap
    cases hmap
  | some qop =>
    have hfields : (challenge.answer md5Hex target cnonce method uri).qopFields =
        some ⟨"auth".toList, cnonce, "00000001".toList⟩ := congrArg (Option.map _) hqop
    have hnonce : (challenge.answer md5Hex target cnonce method uri).nonce = challenge.nonce := rfl
    have huri : (challenge.answer md5Hex target cnonce method uri).uri = uri := rfl
    rw [hfields, hnonce, huri] at hresponse
    have hlengths := congrArg List.length hresponse
    by_cases hauth : challenge.asksForAuth
    · have hmd5 : challenge.algorithm.map trimQuotes = some "MD5-sess".toList :=
        not_not.mp fun hno => h ⟨Or.inr hauth, hno⟩
      have hanswer : (challenge.answer md5Hex target cnonce method uri).response =
          md5Hex (colons [md5Hex (colons [target.user, challenge.realm, target.pwd]),
            challenge.nonce, "00000001".toList, cnonce, "auth".toList,
            md5Hex (colons [method.name, uri])]) := if_pos hauth
      have hlt := hsess hmd5
      rw [hanswer] at hlengths
      simp only [hlength, length_colons_cons, length_colons_singleton] at hlengths hlt
      omega
    · have hanswer : (challenge.answer md5Hex target cnonce method uri).response =
          md5Hex (colons [md5Hex (colons [target.user, challenge.realm, target.pwd]),
            challenge.nonce, md5Hex (colons [method.name, uri])]) := if_neg hauth
      rw [hanswer] at hlengths
      simp only [hlength, length_colons_cons, length_colons_singleton] at hlengths hle
      omega

end Answer

/-! ## A camera -/

/-- An environment whose hash is a given function. -/
def sampleEnvironment (md5Hex : Str → Str) : Environment where
  accepts _ := .ok ()
  answer _ _ _ := .error .failed
  generateCnonce _ _ := "c0ffee".toList
  md5Hex := md5Hex
  toLowercase := asciiLower

/-- The user of a camera. -/
def sampleTarget : Target :=
  ⟨"10.0.0.7".toList, 554, "videoMain".toList, "admin".toList, "secret".toList⟩

end RtspClient

end Fosipcore
