import Fosipcore.Video.ChallengeParams
import Fosipcore.Video.ControlUrls

/-!
# Authorizations at the camera

A camera reads the authorization of a request parameter by parameter, and computes the response again
with the password that it has for the user. What it reads are the fields that the client has put
there, if none of them has a quotation mark, and the response is the one that it computes if and only
if the passwords are the same, for a hash without collisions.

## Main definitions

* `readParams`, `DigestHeader.read`: how the camera reads an authorization
* `DigestHeader.Vouches`: the camera accepts the authorization for a request
* `Challenge.Accepts`: the camera accepts a text as the answer to its challenge
* `Challenge.Quotable`: the texts that go into an answer can be quoted

## Main results

* `readParams_text`: parameters are read back
* `DigestHeader.read_text`: so are the fields of an authorization
* `answer_vouches`, `of_answer_vouches`: the answers that are accepted
* `digest_verifies_iff`: the challenges whose answers are accepted
-/

namespace Fosipcore

namespace RtspClient

open Text

/-! ## Reading parameters -/

/-- A value up to its closing quotation mark, or the next comma, and what is behind it. -/
def readValue : Str → Option (Str × Str)
  | '\"' :: inner => splitOnce ['\"'] inner
  | s => some (s.takeWhile (· ≠ ','), s.dropWhile (· ≠ ','))

/-- Parameters with a comma and a blank in between. -/
def readParams : ℕ → Str → Option (List (Str × Str))
  | 0, _ => none
  | fuel + 1, s => do
    let (name, rest) ← splitOnce ['='] s
    let (value, rest) ← readValue rest
    match stripPrefix ", ".toList rest with
    | some rest => (readParams fuel rest).map ((name, value) :: ·)
    | none => if rest = [] then some [(name, value)] else none

/-- Read the fields of an authorization. -/
def DigestHeader.read (text : Str) : Option DigestHeader := do
  let rest ← stripPrefix "Digest ".toList text
  let params ← readParams rest.length rest
  let username ← params.lookup "username".toList
  let realm ← params.lookup "realm".toList
  let nonce ← params.lookup "nonce".toList
  let uri ← params.lookup "uri".toList
  let response ← params.lookup "response".toList
  let qopFields := do
    let qop ← params.lookup "qop".toList
    let cnonce ← params.lookup "cnonce".toList
    let nc ← params.lookup "nc".toList
    some ⟨qop, cnonce, nc⟩
  some ⟨username, realm, nonce, uri, response, params.lookup "algorithm".toList,
    params.lookup "opaque".toList, qopFields⟩

/-- A value is read up to what is behind the parameter. -/
theorem readValue_valueText (p : AuthParam) {rest : Str}
    (hrest : rest = [] ∨ ∃ s, rest = ',' :: s) :
    readValue (p.valueText ++ rest) = some (p.value, rest) := by
  have hvalue := p.is_value
  rw [AuthParam.valueText]
  split_ifs at hvalue ⊢ with hquoted
  · have hcons : quoted p.value ++ rest = '\"' :: (p.value ++ '\"' :: rest) := by
      simp [quoted]
    rw [hcons, readValue, splitOnce_char _ hvalue]
  · have hcomma : ∀ c ∈ p.value, decide (c ≠ ',') = true := by
      intro c hc
      have hplain := (isTokenChar_plain (hvalue.isTokenChar hc)).2
      refine decide_eq_true ?_
      rintro rfl
      exact hplain (by decide)
    obtain ⟨c, tail, hcons⟩ := List.exists_cons_of_ne_nil hvalue.1
    have hc : c ≠ '\"' := by
      have hplain := (isTokenChar_plain (hvalue.isTokenChar (hcons ▸ List.mem_cons_self))).2
      rintro rfl
      exact hplain (by decide)
    have hvalue' : ∀ s, readValue (p.value ++ s) =
        some ((p.value ++ s).takeWhile (· ≠ ','), (p.value ++ s).dropWhile (· ≠ ',')) := by
      intro s
      rw [hcons, List.cons_append, readValue.eq_2]
      rintro inner heq
      exact hc (List.cons.inj heq).1
    rw [hvalue', List.takeWhile_append_of_pos hcomma, List.dropWhile_append_of_pos hcomma]
    rcases hrest with rfl | ⟨s, rfl⟩
    · rw [List.takeWhile_nil, List.dropWhile_nil, List.append_nil]
    · rw [List.takeWhile_cons_of_neg (by decide), List.dropWhile_cons_of_neg (by decide),
        List.append_nil]

/-- The first parameter is read, and then those behind it. -/
theorem readParams_cons (p : AuthParam) {rest : Str} (hrest : rest = [] ∨ ∃ s, rest = ',' :: s)
    (fuel : ℕ) :
    readParams (fuel + 1) (p.text ++ rest) =
      match stripPrefix ", ".toList rest with
      | some rest => (readParams fuel rest).map ((p.name, p.value) :: ·)
      | none => if rest = [] then some [(p.name, p.value)] else none := by
  have hname : '=' ∉ p.name := p.is_name.not_mem (by decide)
  have hfirst : p.text ++ rest = p.name ++ '=' :: (p.valueText ++ rest) := by
    rw [AuthParam.text, List.append_assoc, List.cons_append]
  rw [readParams, hfirst, splitOnce_char _ hname, Option.bind_eq_bind, Option.bind_some]
  dsimp only
  rw [readValue_valueText p hrest, Option.bind_some]

theorem behind_cons (p : AuthParam) (params : List AuthParam) :
    behind (p :: params) = ", ".toList ++ p.text ++ behind params := by
  rw [behind, List.flatMap_cons, behind]

/-- **Parameters are read back.** -/
theorem readParams_text (p : AuthParam) (params : List AuthParam) {fuel : ℕ}
    (hfuel : params.length < fuel) :
    readParams fuel (p.text ++ behind params) =
      some ((p :: params).map fun p => (p.name, p.value)) := by
  induction params generalizing p fuel with
  | nil =>
    obtain ⟨fuel, rfl⟩ : ∃ m, fuel = m + 1 := ⟨fuel - 1, by omega⟩
    rw [readParams_cons p (behind_cases [])]
    rfl
  | cons q params ih =>
    rw [List.length_cons] at hfuel
    obtain ⟨fuel, rfl⟩ : ∃ m, fuel = m + 1 := ⟨fuel - 1, by omega⟩
    rw [readParams_cons p (behind_cases _), behind_cons, List.append_assoc, stripPrefix_append]
    dsimp only
    rw [ih q (by omega)]
    rfl

/-- There are fewer parameters than characters. -/
theorem length_le_behind (params : List AuthParam) : params.length ≤ (behind params).length := by
  induction params with
  | nil => exact Nat.zero_le _
  | cons p params ih =>
    have hsep : ", ".toList.length = 2 := rfl
    rw [behind_cons, List.length_append, List.length_append, hsep, List.length_cons]
    omega

theorem challengeText_cons (p : AuthParam) (params : List AuthParam) :
    challengeText (p :: params) = "Digest ".toList ++ (p.text ++ behind params) := by
  have hfront : front [] = "Digest ".toList := List.append_nil _
  rw [← hfront, AuthParam.text]
  refine (challengeText_eq [] params p).trans (congrArg (front [] ++ ·) ?_)
  simp only [List.append_assoc, List.cons_append, List.nil_append]

theorem behind_append (params after : List AuthParam) :
    behind (params ++ after) = behind params ++ behind after :=
  List.flatMap_append

/-- More parameters may follow a challenge. -/
theorem challengeText_append (p : AuthParam) (params after : List AuthParam) :
    challengeText (p :: params) ++ behind after = challengeText (p :: (params ++ after)) := by
  rw [challengeText_cons, challengeText_cons, behind_append]
  simp only [List.append_assoc]

/-- The parameters of a text in the format of a challenge. -/
theorem readParams_challengeText (p : AuthParam) (params : List AuthParam) :
    ((stripPrefix "Digest ".toList (challengeText (p :: params))).bind fun rest =>
      readParams rest.length rest) = some ((p :: params).map fun p => (p.name, p.value)) := by
  have hlength : params.length < (p.text ++ behind params).length := by
    have hbehind := length_le_behind params
    rw [List.length_append, AuthParam.text, List.length_append, List.length_cons]
    omega
  rw [challengeText_cons, stripPrefix_append, Option.bind_some, readParams_text p params hlength]

/-! ## Answers -/

/-- An authorization whose fields can be quoted, or are tokens where they are not. -/
structure DigestHeader.Plain (header : DigestHeader) : Prop where
  username : '\"' ∉ header.username
  realm : '\"' ∉ header.realm
  nonce : '\"' ∉ header.nonce
  uri : '\"' ∉ header.uri
  response : '\"' ∉ header.response
  algorithm : ∀ value ∈ header.algorithm, IsToken value
  opaqueValue : ∀ value ∈ header.opaqueValue, '\"' ∉ value
  qopFields : ∀ fields ∈ header.qopFields,
    IsToken fields.qop ∧ '\"' ∉ fields.cnonce ∧ IsToken fields.nc

/-- A parameter with a quoted value. -/
def quotedParam {name value : Str} (hname : IsName name) (hvalue : '\"' ∉ value) : AuthParam :=
  ⟨name, value, true, hname, hvalue⟩

/-- A parameter with a token as its value. -/
def tokenParam {name value : Str} (hname : IsName name) (hvalue : IsToken value) : AuthParam :=
  ⟨name, value, false, hname, hvalue⟩

/-- The text of a parameter with a quoted value, whatever this is. -/
def quotedText (name value : Str) : Str := name ++ '=' :: quoted value

/-- The fields of an authorization in front of the response. -/
def DigestHeader.pairs (header : DigestHeader) : List (Str × Str) :=
  [("username".toList, header.username), ("realm".toList, header.realm),
    ("nonce".toList, header.nonce), ("uri".toList, header.uri)]

/-- The text of fields with something behind them. -/
def pairsText (pairs : List (Str × Str)) : Str :=
  pairs.flatMap fun pair => quotedText pair.1 pair.2 ++ ", ".toList

theorem append_pairs (s₁ v₁ s₂ v₂ s₃ v₃ s₄ v₄ s₅ v₅ x y z : Str) :
    s₁ ++ v₁ ++ s₂ ++ v₂ ++ s₃ ++ v₃ ++ s₄ ++ v₄ ++ s₅ ++ v₅ ++ x ++ y ++ z =
      (s₁ ++ v₁) ++ ((s₂ ++ v₂) ++ ((s₃ ++ v₃) ++ ((s₄ ++ v₄) ++ ((s₅ ++ v₅) ++
        (x ++ (y ++ z)))))) := by
  simp only [List.append_assoc]

theorem append_fields (scheme sep q₁ q₂ q₃ q₄ q₅ rest : Str) :
    (scheme ++ q₁) ++ ((sep ++ q₂) ++ ((sep ++ q₃) ++ ((sep ++ q₄) ++ ((sep ++ q₅) ++ rest)))) =
      scheme ++ ([q₁, q₂, q₃, q₄].flatMap (· ++ sep) ++ (q₅ ++ rest)) := by
  simp

/-- The text of the algorithm, if there is one. -/
def DigestHeader.algorithmText (header : DigestHeader) : Str :=
  header.algorithm.elim [] fun value => ", ".toList ++ ("algorithm".toList ++ '=' :: value)

/-- The text of the opaque value, if there is one. -/
def DigestHeader.opaqueText (header : DigestHeader) : Str :=
  header.opaqueValue.elim [] fun value => ", ".toList ++ quotedText "opaque".toList value

/-- The text of the fields that go with a quality of protection. -/
def DigestHeader.qopText (header : DigestHeader) : Str :=
  header.qopFields.elim [] fun fields =>
    (", ".toList ++ ("qop".toList ++ '=' :: fields.qop)) ++
      ((", ".toList ++ quotedText "cnonce".toList fields.cnonce) ++
        (", ".toList ++ ("nc".toList ++ '=' :: fields.nc)))

theorem append_three (s₁ v₁ s₂ v₂ s₃ v₃ : Str) :
    s₁ ++ v₁ ++ s₂ ++ v₂ ++ s₃ ++ v₃ = (s₁ ++ v₁) ++ ((s₂ ++ v₂) ++ (s₃ ++ v₃)) := by
  simp only [List.append_assoc]

/-- **The text of an authorization**, field by field. -/
theorem DigestHeader.text_eq (header : DigestHeader) :
    header.text = "Digest ".toList ++ (pairsText header.pairs ++
      (quotedText "response".toList header.response ++
        (header.algorithmText ++ (header.opaqueText ++ header.qopText)))) := by
  have hpairs : pairsText header.pairs =
      [quotedText "username".toList header.username, quotedText "realm".toList header.realm,
        quotedText "nonce".toList header.nonce, quotedText "uri".toList header.uri].flatMap
          (· ++ ", ".toList) := rfl
  have husername : "Digest username=".toList ++ quoted header.username =
      "Digest ".toList ++ quotedText "username".toList header.username := rfl
  have hrealm : ", realm=".toList ++ quoted header.realm =
      ", ".toList ++ quotedText "realm".toList header.realm := rfl
  have hnonce : ", nonce=".toList ++ quoted header.nonce =
      ", ".toList ++ quotedText "nonce".toList header.nonce := rfl
  have huri : ", uri=".toList ++ quoted header.uri =
      ", ".toList ++ quotedText "uri".toList header.uri := rfl
  have hresponse : ", response=".toList ++ quoted header.response =
      ", ".toList ++ quotedText "response".toList header.response := rfl
  have halgorithm : (header.algorithm.elim [] fun value => ", algorithm=".toList ++ value) =
      header.algorithmText := by
    rw [DigestHeader.algorithmText]
    cases header.algorithm <;> rfl
  have hopaqueField : (header.opaqueValue.elim [] fun value => ", opaque=".toList ++ quoted value) =
      header.opaqueText := by
    rw [DigestHeader.opaqueText]
    cases header.opaqueValue <;> rfl
  have hqop : (header.qopFields.elim [] fun fields => ", qop=".toList ++ fields.qop ++
      ", cnonce=".toList ++ quoted fields.cnonce ++ ", nc=".toList ++ fields.nc) =
        header.qopText := by
    rw [DigestHeader.qopText]
    cases header.qopFields with
    | none => rfl
    | some fields =>
      have hqop : ", qop=".toList ++ fields.qop =
          ", ".toList ++ ("qop".toList ++ '=' :: fields.qop) := rfl
      have hcnonce : ", cnonce=".toList ++ quoted fields.cnonce =
          ", ".toList ++ quotedText "cnonce".toList fields.cnonce := rfl
      have hnc : ", nc=".toList ++ fields.nc =
          ", ".toList ++ ("nc".toList ++ '=' :: fields.nc) := rfl
      rw [Option.elim_some, Option.elim_some, ← hqop, ← hcnonce, ← hnc]
      exact append_three _ _ _ _ _ _
  unfold DigestHeader.text
  refine (congrArg₂ (· ++ ·) (congrArg₂ (· ++ ·) (congrArg _ halgorithm) hopaqueField) hqop).trans ?_
  refine (append_pairs _ _ _ _ _ _ _ _ _ _ _ _ _).trans ?_
  rw [husername, hrealm, hnonce, huri, hresponse, hpairs, append_fields]

theorem behind_singleton (p : AuthParam) : behind [p] = ", ".toList ++ p.text :=
  List.flatMap_singleton _ _

/-- The names and values of the parameters of an authorization. -/
def DigestHeader.fields (header : DigestHeader) : List (Str × Str) :=
  header.pairs ++ [("response".toList, header.response)] ++
    (header.algorithm.map fun value => ("algorithm".toList, value)).toList ++
    (header.opaqueValue.map fun value => ("opaque".toList, value)).toList ++
    header.qopFields.elim [] fun fields =>
      [("qop".toList, fields.qop), ("cnonce".toList, fields.cnonce), ("nc".toList, fields.nc)]

section

variable {header : DigestHeader}

theorem isName_fields :
    IsName "username".toList ∧ IsName "realm".toList ∧ IsName "nonce".toList ∧
      IsName "uri".toList ∧ IsName "response".toList ∧ IsName "algorithm".toList ∧
      IsName "opaque".toList ∧ IsName "qop".toList ∧ IsName "cnonce".toList ∧
      IsName "nc".toList := by decide

/-- A token as algorithm is a parameter of the text. -/
theorem exists_algorithmText (h : ∀ value ∈ header.algorithm, IsToken value) :
    ∃ params, header.algorithmText = behind params ∧ params.map (fun p => (p.name, p.value)) =
      (header.algorithm.map fun value => ("algorithm".toList, value)).toList := by
  rw [DigestHeader.algorithmText]
  cases halgorithm : header.algorithm with
  | none => exact ⟨[], rfl, rfl⟩
  | some value =>
    refine ⟨[tokenParam isName_fields.2.2.2.2.2.1 (h value halgorithm)], ?_, rfl⟩
    rw [behind_singleton]
    rfl

/-- So is an opaque value that can be quoted. -/
theorem exists_opaqueText (h : ∀ value ∈ header.opaqueValue, '\"' ∉ value) :
    ∃ params, header.opaqueText = behind params ∧ params.map (fun p => (p.name, p.value)) =
      (header.opaqueValue.map fun value => ("opaque".toList, value)).toList := by
  rw [DigestHeader.opaqueText]
  cases hopaqueField : header.opaqueValue with
  | none => exact ⟨[], rfl, rfl⟩
  | some value =>
    refine ⟨[quotedParam isName_fields.2.2.2.2.2.2.1 (h value hopaqueField)], ?_, rfl⟩
    rw [behind_singleton]
    rfl

/-- So are the fields that go with a quality of protection. -/
theorem exists_qopText (h : ∀ fields ∈ header.qopFields,
    IsToken fields.qop ∧ '\"' ∉ fields.cnonce ∧ IsToken fields.nc) :
    ∃ params, header.qopText = behind params ∧ params.map (fun p => (p.name, p.value)) =
      header.qopFields.elim [] fun fields => [("qop".toList, fields.qop),
        ("cnonce".toList, fields.cnonce), ("nc".toList, fields.nc)] := by
  obtain ⟨-, -, -, -, -, -, -, hqopName, hcnonceName, hncName⟩ := isName_fields
  rw [DigestHeader.qopText]
  cases hfields : header.qopFields with
  | none => exact ⟨[], rfl, rfl⟩
  | some fields =>
    obtain ⟨hqop, hcnonce, hnc⟩ := h fields hfields
    refine ⟨[tokenParam hqopName hqop] ++ ([quotedParam hcnonceName hcnonce] ++
      [tokenParam hncName hnc]), ?_, rfl⟩
    rw [behind_append, behind_append, behind_singleton, behind_singleton, behind_singleton]
    rfl

/-- The text up to the response, for fields that can be quoted. -/
theorem exists_front (husername : '\"' ∉ header.username) (hrealm : '\"' ∉ header.realm)
    (hnonce : '\"' ∉ header.nonce) (huri : '\"' ∉ header.uri)
    (hresponse : '\"' ∉ header.response) :
    ∃ p params, (∀ rest, "Digest ".toList ++ (pairsText header.pairs ++
      (quotedText "response".toList header.response ++ rest)) =
        challengeText (p :: params) ++ rest) ∧ (p :: params).map (fun p => (p.name, p.value)) =
      header.pairs ++ [("response".toList, header.response)] := by
  obtain ⟨h₁, h₂, h₃, h₄, h₅, -⟩ := isName_fields
  refine ⟨quotedParam h₁ husername, [quotedParam h₂ hrealm, quotedParam h₃ hnonce,
    quotedParam h₄ huri, quotedParam h₅ hresponse], ?_, rfl⟩
  intro rest
  have hparams := challengeText_eq [quotedParam h₁ husername, quotedParam h₂ hrealm,
    quotedParam h₃ hnonce, quotedParam h₄ huri] [] (quotedParam h₅ hresponse)
  have hfront : front [quotedParam h₁ husername, quotedParam h₂ hrealm, quotedParam h₃ hnonce,
      quotedParam h₄ huri] = "Digest ".toList ++ pairsText header.pairs := rfl
  have hlast : quotedText "response".toList header.response =
      ("response".toList ++ ['=']) ++ (quoted header.response ++ []) := by
    rw [quotedText, List.append_assoc, List.append_nil]
    rfl
  rw [hlast, ← List.append_assoc, ← List.append_assoc, ← hfront]
  exact congrArg (· ++ rest) hparams.symm

/-- The text of a plain authorization has the format of a challenge. -/
theorem text_eq_challengeText (h : header.Plain) :
    ∃ p params, header.text = challengeText (p :: params) ∧
      (p :: params).map (fun p => (p.name, p.value)) = header.fields := by
  obtain ⟨p, params, htext, hparams⟩ := exists_front h.username h.realm h.nonce h.uri h.response
  obtain ⟨algorithm, halgorithm, halgorithms⟩ := exists_algorithmText h.algorithm
  obtain ⟨opaques, hopaqueField, hopaques⟩ := exists_opaqueText h.opaqueValue
  obtain ⟨qops, hqop, hqops⟩ := exists_qopText h.qopFields
  refine ⟨p, params ++ (algorithm ++ (opaques ++ qops)), ?_, ?_⟩
  · rw [DigestHeader.text_eq, halgorithm, hopaqueField, hqop, ← behind_append, ← behind_append, htext,
      challengeText_append]
  · rw [← List.cons_append, List.map_append, List.map_append, List.map_append, hparams,
      halgorithms, hopaques, hqops, DigestHeader.fields]
    simp only [List.append_assoc]

/-- **The fields of an authorization are read back.** -/
theorem DigestHeader.read_text (h : header.Plain) : DigestHeader.read header.text = some header := by
  obtain ⟨p, params, htext, hparams⟩ := text_eq_challengeText h
  have hread := readParams_challengeText p params
  rw [hparams] at hread
  obtain ⟨rest, hstrip, hrest⟩ := Option.bind_eq_some_iff.mp hread
  rw [DigestHeader.read, htext, hstrip, Option.bind_eq_bind, Option.bind_some, hrest,
    Option.bind_eq_bind, Option.bind_some]
  obtain ⟨username, realm, nonce, uri, response, algorithm, opaqueValue, qopFields⟩ := header
  cases algorithm <;> cases opaqueValue <;> cases qopFields <;> rfl

end

/-! ## Accepted authorizations -/

instance (md5Hex : Str → Str) (pwd : Str) (method : Method) (header : DigestHeader) :
    Decidable (header.Verifies md5Hex pwd method) :=
  inferInstanceAs (Decidable (_ = _))

/-- The users of a camera: there is one. -/
structure Account where
  user : Str
  pwd : Str
  realm : Str

/-- **The camera accepts an authorization** for a request: it is that of the user, for this address
and with the nonce of the connection, and the response is the one that the camera computes. -/
def DigestHeader.Vouches (md5Hex : Str → Str) (account : Account) (nonce : Str) (method : Method)
    (url : Str) (header : DigestHeader) : Prop :=
  (header.username = account.user ∧ header.realm = account.realm ∧ header.nonce = nonce ∧
    header.uri = url) ∧ header.Verifies md5Hex account.pwd method

instance (md5Hex : Str → Str) (account : Account) (nonce : Str) (method : Method) (url : Str)
    (header : DigestHeader) : Decidable (header.Vouches md5Hex account nonce method url) :=
  inferInstanceAs (Decidable (_ ∧ _))

theorem colons_cons (a b : Str) (rest : List Str) :
    colons (a :: b :: rest) = a ++ ':' :: colons (b :: rest) := by
  simp [colons, List.intercalate]

/-- The text that is hashed for the response. -/
def DigestHeader.responseText (md5Hex : Str → Str) (ha1 : Str) (method : Method)
    (header : DigestHeader) : Str :=
  let ha2 := md5Hex (colons [method.name, header.uri])
  match header.qopFields with
  | none => colons [ha1, header.nonce, ha2]
  | some fields => colons [ha1, header.nonce, fields.nc, fields.cnonce, fields.qop, ha2]

/-- The texts that are hashed for the response with a password: that of the user, and that of the
request. -/
def DigestHeader.hashed (md5Hex : Str → Str) (method : Method) (header : DigestHeader) (pwd : Str) :
    Set Str :=
  let credentials := colons [header.username, header.realm, pwd]
  {credentials, header.responseText md5Hex (md5Hex credentials) method}

/-- The hash has no collisions between the texts that are hashed with two passwords. -/
def DigestHeader.Separates (md5Hex : Str → Str) (method : Method) (header : DigestHeader)
    (pwd pwd' : Str) : Prop :=
  Set.InjOn md5Hex (header.hashed md5Hex method pwd ∪ header.hashed md5Hex method pwd')

theorem expectedResponse_eq {header : DigestHeader} (halgorithm : header.algorithm = none)
    (md5Hex : Str → Str) (pwd : Str) (method : Method) :
    header.expectedResponse md5Hex pwd method = some (md5Hex (header.responseText md5Hex
      (md5Hex (colons [header.username, header.realm, pwd])) method)) := by
  have hha1 : header.ha1 md5Hex pwd =
      some (md5Hex (colons [header.username, header.realm, pwd])) := by
    refine if_neg ?_
    rw [halgorithm]
    rintro ⟨⟩
  rw [DigestHeader.expectedResponse, hha1, Option.map_some, DigestHeader.responseText]
  cases header.qopFields with
  | none => rfl
  | some fields => rfl

theorem responseText_inj {md5Hex : Str → Str} {ha1 ha1' : Str} {method : Method}
    {header : DigestHeader} (h : header.responseText md5Hex ha1 method =
      header.responseText md5Hex ha1' method) : ha1 = ha1' := by
  rw [DigestHeader.responseText, DigestHeader.responseText] at h
  cases hfields : header.qopFields with
  | none =>
    rw [hfields] at h
    dsimp only at h
    rw [colons_cons, colons_cons ha1'] at h
    exact List.append_cancel_right h
  | some fields =>
    rw [hfields] at h
    dsimp only at h
    rw [colons_cons, colons_cons ha1'] at h
    exact List.append_cancel_right h

/-- **Without collisions**, the response tells the passwords apart. -/
theorem pwd_of_expectedResponse {md5Hex : Str → Str} {header : DigestHeader}
    (halgorithm : header.algorithm = none) {pwd pwd' : Str} {method : Method}
    (hseparates : header.Separates md5Hex method pwd pwd')
    (h : header.expectedResponse md5Hex pwd method = header.expectedResponse md5Hex pwd' method) :
    pwd = pwd' := by
  rw [expectedResponse_eq halgorithm, expectedResponse_eq halgorithm, Option.some_inj] at h
  -- the responses agree, so the credentials were hashed to one text, so they agree
  have hresponse := responseText_inj (hseparates (.inl (.inr rfl)) (.inr (.inr rfl)) h)
  have hcredentials := hseparates (.inl (.inl rfl)) (.inr (.inl rfl)) hresponse
  rw [colons_cons, colons_cons, colons_cons, colons_cons] at hcredentials
  have hrealm := List.cons.inj (List.append_cancel_left hcredentials)
  have hlast := List.cons.inj (List.append_cancel_left hrealm.2)
  simpa [colons] using hlast.2

/-! ## Answers that can be quoted -/

/-- The texts that go into the answer can be quoted. -/
structure Challenge.Quotable (challenge : Challenge) (target : Target) (uri : Str) : Prop where
  user : '\"' ∉ target.user
  uri : '\"' ∉ uri
  realm : '\"' ∉ challenge.realm
  nonce : '\"' ∉ challenge.nonce
  opaqueValue : ∀ value ∈ challenge.opaqueValue.map trimQuotes, '\"' ∉ value

/-- The response can be quoted if every hash can. -/
theorem quote_not_mem_response {md5Hex : Str → Str} (hmd5Hex : ∀ s, '\"' ∉ md5Hex s)
    (challenge : Challenge) (target : Target) (cnonce : Str) (method : Method) (uri : Str) :
    '\"' ∉ (challenge.answer md5Hex target cnonce method uri).response := by
  dsimp only [Challenge.answer]
  split_ifs
  · exact hmd5Hex _
  · exact hmd5Hex _

theorem Challenge.Quotable.plain {challenge : Challenge} {md5Hex : Str → Str} {target : Target}
    {cnonce uri : Str} {method : Method} (h : challenge.Quotable target uri)
    (halgorithm : ∀ value ∈ challenge.algorithm.map trimQuotes, IsToken value)
    (hmd5Hex : ∀ s, '\"' ∉ md5Hex s) (hcnonce : '\"' ∉ cnonce) :
    (challenge.answer md5Hex target cnonce method uri).Plain := by
  have htokens : IsToken "auth".toList ∧ IsToken "00000001".toList := by decide
  refine ⟨h.user, h.realm, h.nonce, h.uri, quote_not_mem_response hmd5Hex _ _ _ _ _, halgorithm,
    h.opaqueValue, ?_⟩
  intro fields hfields
  obtain ⟨value, -, rfl⟩ := Option.map_eq_some_iff.mp hfields
  exact ⟨htokens.1, hcnonce, htokens.2⟩

/-! ## The challenge of a camera -/

/-- The camera gives its realm and a nonce, with or without a quality of protection. -/
def Account.challenge (account : Account) (nonce : Str) (qop : Bool) : Challenge :=
  ⟨account.realm, nonce, none, if qop then some "auth".toList else none, none⟩

variable {account : Account} {nonce : Str} {qop : Bool} {md5Hex : Str → Str} {target : Target}
  {cnonce uri : Str} {method : Method}

theorem Account.answerable (account : Account) (nonce : Str) (qop : Bool) :
    (account.challenge nonce qop).Answerable := by
  refine ⟨?_, by rintro ⟨⟩⟩
  cases qop with
  | false => exact .inl rfl
  | true => exact .inr (.inl rfl)

/-- The fields of an answer can be quoted if the texts that go into it can. -/
theorem answer_plain (hrealm : '\"' ∉ account.realm) (hnonce : '\"' ∉ nonce)
    (huser : '\"' ∉ target.user) (huri : '\"' ∉ uri) (hmd5Hex : ∀ s, '\"' ∉ md5Hex s)
    (hcnonce : '\"' ∉ cnonce) :
    ((account.challenge nonce qop).answer md5Hex target cnonce method uri).Plain :=
  Challenge.Quotable.plain ⟨huser, huri, hrealm, hnonce, nofun⟩ nofun hmd5Hex hcnonce

/-- **The answer of the user is accepted.** -/
theorem answer_vouches (huser : target.user = account.user) (hpwd : target.pwd = account.pwd) :
    ((account.challenge nonce qop).answer md5Hex target cnonce method uri).Vouches md5Hex account
      nonce method uri := by
  refine ⟨⟨huser, rfl, rfl, rfl⟩, ?_⟩
  rw [← hpwd]
  exact verifies_of_answerable target cnonce method uri (account.answerable nonce qop) md5Hex

/-- **No other answer is accepted**, if the hash has no collisions. -/
theorem of_answer_vouches
    (hseparates : ((account.challenge nonce qop).answer md5Hex target cnonce method uri).Separates
      md5Hex method target.pwd account.pwd)
    (h : ((account.challenge nonce qop).answer md5Hex target cnonce method uri).Vouches md5Hex
      account nonce method uri) : target.user = account.user ∧ target.pwd = account.pwd := by
  refine ⟨h.1.1, ?_⟩
  have hown := verifies_of_answerable target cnonce method uri (account.answerable nonce qop) md5Hex
  exact pwd_of_expectedResponse rfl hseparates (hown.trans h.2.symm)

/-! ## Answers to any challenge -/

/-- **The camera accepts the answer** to its challenge: it reads the text, finds the user, the address
and its own values there, and computes the response again with the password of the user. -/
def Challenge.Accepts (challenge : Challenge) (md5Hex : Str → Str) (target : Target)
    (method : Method) (uri text : Str) : Prop :=
  ∃ header, DigestHeader.read text = some header ∧
    (header.username = target.user ∧ header.realm = challenge.realm ∧
      header.nonce = challenge.nonce ∧ header.uri = uri ∧
      header.opaqueValue = challenge.opaqueValue.map trimQuotes) ∧
    header.Verifies md5Hex target.pwd method

/-- A quoted text ends at the first quotation mark. -/
theorem exists_splitOnce_quote (value rest : Str) :
    ∃ after, splitOnce ['\"'] (value ++ '\"' :: rest) = some (value.takeWhile (· ≠ '\"'), after) ∧
      ('\"' ∉ value → after = rest) := by
  by_cases hquote : '\"' ∈ value
  · obtain ⟨a, b, rfl, ha⟩ := List.eq_append_cons_of_mem hquote
    refine ⟨b ++ '\"' :: rest, ?_, fun hno => absurd hquote hno⟩
    rw [List.append_assoc, List.cons_append, splitOnce_char _ ha, List.takeWhile_append_of_pos,
      List.takeWhile_cons_of_neg (by decide), List.append_nil]
    rintro c hc
    exact decide_eq_true fun heq => ha (heq ▸ hc)
  · refine ⟨rest, ?_, fun _ => rfl⟩
    have hall : value.takeWhile (· ≠ '\"') = value := by
      rw [List.takeWhile_eq_self_iff]
      intro c hc
      exact decide_eq_true fun heq => hquote (heq ▸ hc)
    rw [splitOnce_char _ hquote, hall]

/-- **A quoted value is read** up to the first quotation mark, and if this is the last one the
parameters behind it are read too. -/
theorem exists_of_readParams_quotedText {fuel : ℕ} {name value rest : Str}
    {params : List (Str × Str)} (hname : '=' ∉ name)
    (h : readParams fuel (quotedText name value ++ rest) = some params) :
    ∃ tail, params = (name, value.takeWhile (· ≠ '\"')) :: tail ∧
      ('\"' ∉ value → ∀ rest', rest = ", ".toList ++ rest' →
        ∃ fuel', readParams fuel' rest' = some tail) := by
  cases fuel with
  | zero => cases h
  | succ fuel =>
    obtain ⟨after, hsplit, hafter⟩ := exists_splitOnce_quote value rest
    have hfirst : quotedText name value ++ rest =
        name ++ '=' :: ('\"' :: (value ++ '\"' :: rest)) := by
      simp [quotedText, quoted]
    rw [readParams, hfirst, splitOnce_char _ hname, Option.bind_eq_bind, Option.bind_some] at h
    dsimp only at h
    rw [readValue, hsplit, Option.bind_some] at h
    dsimp only at h
    cases hstrip : stripPrefix ", ".toList after with
    | some behind =>
      rw [hstrip] at h
      obtain ⟨tail, htail, rfl⟩ := Option.map_eq_some_iff.mp h
      refine ⟨tail, rfl, ?_⟩
      rintro hquote rest' rfl
      rw [hafter hquote, stripPrefix_append, Option.some_inj] at hstrip
      exact ⟨fuel, hstrip ▸ htail⟩
    | none =>
      rw [hstrip] at h
      obtain ⟨-, hparams⟩ := Option.ite_none_right_eq_some.mp h
      refine ⟨[], (Option.some.inj hparams).symm, ?_⟩
      rintro hquote rest' rfl
      rw [hafter hquote, stripPrefix_append] at hstrip
      cases hstrip

/-- If quoted values are found under their names, they have no quotation mark. -/
theorem not_mem_of_readParams {pairs : List (Str × Str)} (hnames : ∀ pair ∈ pairs, '=' ∉ pair.1)
    (hnodup : (pairs.map Prod.fst).Nodup) {fuel : ℕ} {rest : Str} {params : List (Str × Str)}
    (h : readParams fuel (pairsText pairs ++ rest) = some params)
    (hlookup : ∀ pair ∈ pairs, params.lookup pair.1 = some pair.2) :
    ∀ pair ∈ pairs, '\"' ∉ pair.2 := by
  induction pairs generalizing fuel params with
  | nil => exact fun _ hpair => absurd hpair List.not_mem_nil
  | cons pair pairs ih =>
    obtain ⟨name, value⟩ := pair
    rw [List.forall_mem_cons] at hnames hlookup ⊢
    rw [List.map_cons, List.nodup_cons] at hnodup
    have htext : pairsText ((name, value) :: pairs) ++ rest =
        quotedText name value ++ (", ".toList ++ (pairsText pairs ++ rest)) := by
      rw [pairsText, List.flatMap_cons, List.append_assoc, List.append_assoc]
      rfl
    rw [htext] at h
    obtain ⟨tail, rfl, htail⟩ := exists_of_readParams_quotedText hnames.1 h
    -- the value that is found is the one that was cut off at a quotation mark
    have hvalue : '\"' ∉ value := by
      have hfound := hlookup.1
      rw [List.lookup_cons_self, Option.some_inj, List.takeWhile_eq_self_iff] at hfound
      exact fun hquote => of_decide_eq_true (hfound _ hquote) rfl
    obtain ⟨fuel', htail⟩ := htail hvalue _ rfl
    refine ⟨hvalue, ih hnames.2 hnodup.2 htail ?_⟩
    intro pair hpair
    have hne : pair.1 ≠ name := fun heq => hnodup.1 (List.mem_map.mpr ⟨pair, hpair, heq⟩)
    have hfound := hlookup.2 pair hpair
    rwa [List.lookup_cons, beq_false_of_ne hne] at hfound

/-- Parameters that are followed by others are read before them. -/
theorem exists_tail_of_readParams {before : List AuthParam} {rest : Str} {fuel : ℕ}
    {params : List (Str × Str)}
    (h : readParams fuel ((before.flatMap fun p => p.text ++ ", ".toList) ++ rest) = some params) :
    ∃ fuel' tail, params = before.map (fun p => (p.name, p.value)) ++ tail ∧
      readParams fuel' rest = some tail := by
  induction before generalizing fuel params with
  | nil => exact ⟨fuel, params, rfl, h⟩
  | cons p before ih =>
    cases fuel with
    | zero => cases h
    | succ fuel =>
      have hcomma : ∀ s, ", ".toList ++ s = [] ∨ ∃ t, ", ".toList ++ s = ',' :: t :=
        fun s => .inr ⟨' ' :: s, rfl⟩
      rw [List.flatMap_cons, List.append_assoc, List.append_assoc,
        readParams_cons p (hcomma _), stripPrefix_append] at h
      obtain ⟨tail, htail, rfl⟩ := Option.map_eq_some_iff.mp h
      obtain ⟨fuel', tail', rfl, hrest⟩ := ih htail
      exact ⟨fuel', tail', rfl, hrest⟩

/-- The fields of an authorization are looked up by their names. -/
theorem exists_of_read {text : Str} {header : DigestHeader}
    (h : DigestHeader.read text = some header) :
    ∃ rest params, stripPrefix "Digest ".toList text = some rest ∧
      readParams rest.length rest = some params ∧
      (∀ pair ∈ header.pairs, params.lookup pair.1 = some pair.2) ∧
      params.lookup "opaque".toList = header.opaqueValue := by
  obtain ⟨rest, hstrip, h⟩ := Option.bind_eq_some_iff.mp h
  obtain ⟨params, hparams, h⟩ := Option.bind_eq_some_iff.mp h
  obtain ⟨username, husername, h⟩ := Option.bind_eq_some_iff.mp h
  obtain ⟨realm, hrealm, h⟩ := Option.bind_eq_some_iff.mp h
  obtain ⟨nonce, hnonce, h⟩ := Option.bind_eq_some_iff.mp h
  obtain ⟨uri, huri, h⟩ := Option.bind_eq_some_iff.mp h
  obtain ⟨response, -, h⟩ := Option.bind_eq_some_iff.mp h
  obtain rfl := Option.some.inj h
  refine ⟨rest, params, hstrip, hparams, ?_, rfl⟩
  simp only [DigestHeader.pairs, List.forall_mem_cons]
  exact ⟨husername, hrealm, hnonce, huri, fun _ hpair => absurd hpair List.not_mem_nil⟩

theorem flatMap_append_sep {α : Type} (text : α → Str) (sep : Str) (a : α) (l : List α) :
    (a :: l).flatMap (fun a => text a ++ sep) =
      text a ++ l.flatMap (fun a => sep ++ text a) ++ sep := by
  induction l generalizing a with
  | nil => simp
  | cons b l ih => rw [List.flatMap_cons, ih b, List.flatMap_cons]; simp only [List.append_assoc]

/-- What stands in front of a parameter is the challenge without it, and a separator. -/
theorem front_cons (p : AuthParam) (params : List AuthParam) :
    front (p :: params) = challengeText (p :: params) ++ ", ".toList := by
  have htext := flatMap_append_sep AuthParam.text ", ".toList p params
  rw [challengeText_cons, List.append_assoc, behind]
  exact congrArg ("Digest ".toList ++ ·) htext

/-- The opaque value of an authorization is read up to the first quotation mark, if what stands in
front of it can be read. -/
theorem lookup_opaqueValue {header : DigestHeader} {value rest : Str} {params : List (Str × Str)}
    (hpairs : ∀ pair ∈ header.pairs, '\"' ∉ pair.2) (hresponse : '\"' ∉ header.response)
    (halgorithm : ∀ value ∈ header.algorithm, IsToken value)
    (hopaqueField : header.opaqueValue = some value)
    (hstrip : stripPrefix "Digest ".toList header.text = some rest)
    (hread : readParams rest.length rest = some params) :
    params.lookup "opaque".toList = some (value.takeWhile (· ≠ '\"')) := by
  simp only [DigestHeader.pairs, List.forall_mem_cons] at hpairs
  obtain ⟨husername, hrealm, hnonce, huri, -⟩ := hpairs
  obtain ⟨p, front', htext, hfront⟩ := exists_front husername hrealm hnonce huri hresponse
  obtain ⟨algorithms, halgorithms, hnames⟩ := exists_algorithmText halgorithm
  have hopaqueText : header.opaqueText = ", ".toList ++ quotedText "opaque".toList value := by
    rw [DigestHeader.opaqueText, hopaqueField, Option.elim_some]
  -- what stands in front of the opaque value are parameters with other names
  have hbefore : header.text = front (p :: (front' ++ algorithms)) ++
      (quotedText "opaque".toList value ++ header.qopText) :=
    calc header.text
      _ = challengeText (p :: front') ++ (behind algorithms ++
            ((", ".toList ++ quotedText "opaque".toList value) ++ header.qopText)) := by
          rw [DigestHeader.text_eq, htext, halgorithms, hopaqueText]
      _ = (challengeText (p :: front') ++ behind algorithms) ++
            (", ".toList ++ (quotedText "opaque".toList value ++ header.qopText)) := by
          rw [List.append_assoc, List.append_assoc]
      _ = challengeText (p :: (front' ++ algorithms)) ++
            (", ".toList ++ (quotedText "opaque".toList value ++ header.qopText)) := by
          rw [challengeText_append]
      _ = _ := by rw [front_cons]; exact (List.append_assoc _ _ _).symm
  have hrest : rest = (p :: (front' ++ algorithms)).flatMap (fun p => p.text ++ ", ".toList) ++
      (quotedText "opaque".toList value ++ header.qopText) := by
    have hsplit := hbefore.trans (List.append_assoc _ _ _)
    rw [hsplit, stripPrefix_append] at hstrip
    exact (Option.some.inj hstrip).symm
  have hothers : ((p :: (front' ++ algorithms)).map fun p => (p.name, p.value)).lookup
      "opaque".toList = none := by
    rw [← List.cons_append, List.map_append, hfront, hnames]
    cases header.algorithm <;> rfl
  rw [hrest] at hread
  obtain ⟨fuel, tail, rfl, htail⟩ := exists_tail_of_readParams hread
  obtain ⟨tail, rfl, -⟩ := exists_of_readParams_quotedText (by decide) htail
  rw [List.lookup_append, hothers, Option.none_or, List.lookup_cons_self]

section

variable {challenge : Challenge} {md5Hex : Str → Str} {target : Target} {cnonce uri : Str}
  {method : Method}

/-- **What the camera accepts can be quoted.** -/
theorem quotable_of_accepts (hmd5Hex : ∀ s, '\"' ∉ md5Hex s)
    (halgorithm : ∀ value ∈ challenge.algorithm.map trimQuotes, IsToken value)
    (h : challenge.Accepts md5Hex target method uri
      (challenge.answer md5Hex target cnonce method uri).text) :
    challenge.Quotable target uri := by
  obtain ⟨header, hread, ⟨husername, hrealm, hnonce, huri, hopaqueField⟩, -⟩ := h
  obtain ⟨rest, params, hstrip, hparams, hpairs, hvalue⟩ := exists_of_read hread
  have hsame : header.pairs = (challenge.answer md5Hex target cnonce method uri).pairs := by
    rw [DigestHeader.pairs, husername, hrealm, hnonce, huri]
    rfl
  have hnames : ∀ header : DigestHeader, (∀ pair ∈ header.pairs, '=' ∉ pair.1) ∧
      (header.pairs.map Prod.fst).Nodup := by
    intro header
    have hfixed : header.pairs.map Prod.fst =
        ["username".toList, "realm".toList, "nonce".toList, "uri".toList] := rfl
    have hsigns : ∀ name ∈ header.pairs.map Prod.fst, '=' ∉ name := by
      rw [hfixed]
      decide
    refine ⟨fun pair hpair => hsigns _ (List.mem_map_of_mem hpair), ?_⟩
    rw [hfixed]
    decide
  rw [hsame] at hpairs
  obtain ⟨hsigns, hnodup⟩ := hnames (challenge.answer md5Hex target cnonce method uri)
  have hquotes : ∀ pair ∈ (challenge.answer md5Hex target cnonce method uri).pairs,
      '\"' ∉ pair.2 := by
    have hrest := hstrip
    rw [DigestHeader.text_eq, stripPrefix_append] at hrest
    rw [← Option.some.inj hrest] at hparams
    exact not_mem_of_readParams hsigns hnodup hparams hpairs
  have hresponse := quote_not_mem_response hmd5Hex challenge target cnonce method uri
  have hopaques : ∀ value ∈ challenge.opaqueValue.map trimQuotes, '\"' ∉ value := by
    intro value hopaqueValue
    have hfound := lookup_opaqueValue hquotes hresponse halgorithm hopaqueValue hstrip hparams
    -- the value that is found is the one that was cut off at a quotation mark
    rw [hvalue, hopaqueField, hopaqueValue, Option.some_inj, eq_comm,
      List.takeWhile_eq_self_iff] at hfound
    exact fun hquote => of_decide_eq_true (hfound _ hquote) rfl
  simp only [DigestHeader.pairs, List.forall_mem_cons] at hquotes
  exact ⟨hquotes.1, hquotes.2.2.2.1, hquotes.2.1, hquotes.2.2.1, hopaques⟩

/-- A text that the camera accepts answers the challenge with the formula of its fields, if the hash
keeps the lengths. -/
theorem answerable_of_accepts (hmd5Hex : ∀ s, '\"' ∉ md5Hex s)
    (hlength : ∀ s, (md5Hex s).length = s.length)
    (halgorithm : ∀ value ∈ challenge.algorithm.map trimQuotes, IsToken value)
    (hcnonce : '\"' ∉ cnonce)
    (h : challenge.Accepts md5Hex target method uri
      (challenge.answer md5Hex target cnonce method uri).text) :
    challenge.Answerable ∧ challenge.Quotable target uri := by
  have hquotable := quotable_of_accepts hmd5Hex halgorithm h
  refine ⟨?_, hquotable⟩
  by_contra hno
  obtain ⟨header, hread, -, hverifies⟩ := h
  rw [DigestHeader.read_text (hquotable.plain halgorithm hmd5Hex hcnonce), Option.some_inj] at hread
  subst hread
  exact not_verifies target cnonce method uri hlength hno hverifies

/-- An answer that can be quoted is accepted, if it is computed with the formula of its fields. -/
theorem accepts_of_answerable (hanswerable : challenge.Answerable)
    (hquotable : challenge.Quotable target uri) (hmd5Hex : ∀ s, '\"' ∉ md5Hex s)
    (halgorithm : ∀ value ∈ challenge.algorithm.map trimQuotes, IsToken value)
    (hcnonce : '\"' ∉ cnonce) :
    challenge.Accepts md5Hex target method uri
      (challenge.answer md5Hex target cnonce method uri).text :=
  ⟨_, DigestHeader.read_text (hquotable.plain halgorithm hmd5Hex hcnonce),
    ⟨rfl, rfl, rfl, rfl, rfl⟩, verifies_of_answerable target cnonce method uri hanswerable md5Hex⟩

end

/-- A hash that keeps the lengths, and nothing else. -/
def lengthHash (s : Str) : Str := letters s.length

theorem lengthHash_plain (s : Str) : '\"' ∉ lengthHash s := not_mem_letters (by decide) _

theorem length_lengthHash (s : Str) : (lengthHash s).length = s.length := List.length_replicate

/-- The client reads a challenge, and the camera does not accept what it answers. -/
def AnswersInVain (wwwAuth : Str) (target : Target) : Prop :=
  ∃ challenge, parseChallenge (sampleEnvironment lengthHash) wwwAuth = .ok challenge ∧
    ∀ text, digestAuthHeader (sampleEnvironment lengthHash) target "c0ffee".toList .describe
        "rtsp://10.0.0.7/".toList wwwAuth = .ok text →
      ¬ challenge.Accepts lengthHash target .describe "rtsp://10.0.0.7/".toList text

theorem answersInVain {wwwAuth : Str} {challenge : Challenge} {target : Target}
    (h : parseChallenge (sampleEnvironment lengthHash) wwwAuth = .ok challenge)
    (halgorithm : ∀ value ∈ challenge.algorithm.map trimQuotes, IsToken value)
    (hno : ¬ (challenge.Answerable ∧ '\"' ∉ target.user)) : AnswersInVain wwwAuth target := by
  refine ⟨challenge, h, ?_⟩
  intro text htext haccepts
  rw [digestAuthHeader_eq, h] at htext
  obtain rfl := Except.ok.inj htext
  obtain ⟨hanswerable, hquotable⟩ := answerable_of_accepts lengthHash_plain length_lengthHash
    halgorithm (by decide) haccepts
  exact hno ⟨hanswerable, hquotable.user⟩

end RtspClient

end Fosipcore
