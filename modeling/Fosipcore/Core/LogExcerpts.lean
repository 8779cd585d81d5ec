import Fosipcore.Core.Dispatch
import Fosipcore.Library.ByteSlice
import Fosipcore.Library.Utf8

/-!
# Excerpts in the log

Two lines of the log hold the first 200 bytes of a text: the one of a login, with the answer of the
camera, and the one of each response that is sent. The excerpt is a slice of the text, and a slice
that ends inside a character is a panic. What the camera sends decides where the characters end.

The response that carries an answer has 51 bytes in front of it, so there the slice ends at the byte
149 of the answer, as it is escaped.

## Main definitions

* `excerpt`: the first 200 bytes of a text
* `CameraAnswer`: what a camera answers to a request, with its body in bytes
* `BuiltFrom`: the responses that are built from an answer

## Main results

* `straddles_flatResponse`: where the slice of a response ends in the text of the camera
* `excerpts_isSome_iff`: the answers without a panic
-/

namespace Fosipcore

namespace Dispatch

open Text Json Login MsgId
open Cgi (HttpResponse cgiResult failureXml)

/-- `&s[..s.len().min(200)]`, or `none` for a panic. -/
def excerpt (s : Str) : Option Str := takeBytes (min (byteLength s) 200) s

/-- **An excerpt is taken** unless a character lies across its end. -/
theorem excerpt_isSome_iff (s : Str) : (excerpt s).isSome = true ↔ ¬ Straddles 200 s := by
  rw [excerpt, takeBytes_isSome_iff (Nat.min_le_left _ _)]
  rcases Nat.le_total (byteLength s) 200 with hshort | hlong
  · -- the text ends before
    rw [Nat.min_eq_left hshort]
    exact iff_of_true (not_straddles_of_le le_rfl) (not_straddles_of_le hshort)
  · rw [Nat.min_eq_right hlong]

/-! ## Texts of ASCII characters -/

theorem isAscii_numeral (n : ℕ) : IsAscii (numeral n) := by
  intro c hc
  have hdigit := isDigit_of_mem_numeral hc
  rw [Char.isDigit, Bool.and_eq_true, decide_eq_true_eq, decide_eq_true_eq] at hdigit
  exact Nat.lt_of_le_of_lt (UInt32.le_iff_toNat_le.mp hdigit.2) (by decide)

theorem isAscii_printInt (n : ℤ) : IsAscii (print (.number (.int n))) := by
  rw [print, printNumber]
  split_ifs
  · exact isAscii_cons.mpr ⟨by decide, isAscii_numeral _⟩
  · exact isAscii_numeral _

/-- Escapes are ASCII. -/
theorem isAscii_escape {s : Str} (h : IsAscii s) : IsAscii (escape s) := by
  have halphabet : IsAscii escapeAlphabet := forall_of_all (by decide)
  intro d hd
  obtain ⟨c, hc, hd⟩ := List.mem_flatMap.mp hd
  rcases escapeChar_cases c with hsingle | hescape
  · rw [hsingle, List.mem_singleton] at hd
    exact hd ▸ h c hc
  · exact halphabet d (hescape hd)

theorem isAscii_printString {s : Str} (h : IsAscii s) : IsAscii (printString s) :=
  isAscii_append.mpr ⟨isAscii_cons.mpr ⟨by decide, isAscii_escape h⟩,
    isAscii_cons.mpr ⟨by decide, isAscii_nil⟩⟩

/-- Commas between ASCII texts. -/
theorem isAscii_intercalate {items : List Str} (h : ∀ item ∈ items, IsAscii item) :
    IsAscii ([','].intercalate items) := by
  induction items with
  | nil => exact isAscii_nil
  | cons item items ih =>
    obtain ⟨hitem, hitems⟩ := List.forall_mem_cons.mp h
    cases items with
    | nil => simpa [List.intercalate] using hitem
    | cons next items =>
      rw [List.intercalate_cons_cons]
      refine isAscii_append.mpr ⟨isAscii_append.mpr ⟨hitem, ?_⟩, ih hitems⟩
      exact isAscii_cons.mpr ⟨by decide, isAscii_nil⟩

theorem isAscii_flatMap {α : Type} {f : α → Str} {l : List α} (h : ∀ a ∈ l, IsAscii (f a)) :
    IsAscii (l.flatMap f) := by
  intro c hc
  obtain ⟨a, ha, hc⟩ := List.mem_flatMap.mp hc
  exact h a ha c hc

/-- The text of an entry. -/
def printEntry (entry : Str × Json) : Str := printString entry.1 ++ ':' :: print entry.2

theorem printEntries_eq (entries : List (Str × Json)) :
    printEntries entries = entries.map printEntry := by
  induction entries with
  | nil => rfl
  | cons entry entries ih => rw [printEntries, ih, List.map_cons, printEntry]

theorem printItems_eq (items : List Json) : printItems items = items.map print := by
  induction items with
  | nil => rfl
  | cons item items ih => rw [printItems, ih, List.map_cons]

/-- The key and the value of an entry are ASCII. -/
def AsciiEntry (entry : Str × Json) : Prop := IsAscii entry.1 ∧ IsAscii (print entry.2)

theorem AsciiEntry.isAscii {entry : Str × Json} (h : AsciiEntry entry) :
    IsAscii (printEntry entry) :=
  isAscii_append.mpr ⟨isAscii_printString h.1, isAscii_cons.mpr ⟨by decide, h.2⟩⟩

/-! ## An object around one of its strings -/

/-- The text of an object in front of the string of a key. -/
def objectHead (pre : List (Str × Json)) (key : Str) : Str :=
  '\x7b' :: pre.flatMap (fun entry => printEntry entry ++ [',']) ++ printString key ++ [':', '\"']

/-- The text of an object behind a string. -/
def objectTail (post : List (Str × Json)) : Str :=
  '\"' :: post.flatMap (fun entry => ',' :: printEntry entry) ++ ['\x7d']

theorem print_object_eq (pre post : List (Str × Json)) (key s : Str) :
    print (.object (pre ++ (key, .string s) :: post)) =
      objectHead pre key ++ (escape s ++ objectTail post) := by
  rw [print, printEntries_eq, List.map_append, List.map_cons, intercalate_append_cons,
    List.flatMap_map, List.flatMap_map, printEntry, print, objectHead, objectTail]
  simp only [printString, List.append_assoc, List.cons_append, List.nil_append]

theorem isAscii_objectHead {pre : List (Str × Json)} {key : Str}
    (hpre : ∀ entry ∈ pre, AsciiEntry entry) (hkey : IsAscii key) :
    IsAscii (objectHead pre key) := by
  refine isAscii_append.mpr ⟨isAscii_append.mpr ⟨isAscii_cons.mpr ⟨by decide, ?_⟩,
    isAscii_printString hkey⟩, forall_of_all (by decide)⟩
  refine isAscii_flatMap fun entry hentry => ?_
  exact isAscii_append.mpr ⟨(hpre entry hentry).isAscii, forall_of_all (by decide)⟩

theorem isAscii_objectTail {post : List (Str × Json)} (hpost : ∀ entry ∈ post, AsciiEntry entry) :
    IsAscii (objectTail post) := by
  refine isAscii_append.mpr ⟨isAscii_cons.mpr ⟨by decide, ?_⟩, forall_of_all (by decide)⟩
  exact isAscii_flatMap fun entry hentry =>
    isAscii_cons.mpr ⟨by decide, (hpost entry hentry).isAscii⟩

/-- **A position behind the head** of an object is one in its string. -/
theorem straddles_object {pre post : List (Str × Json)} {key : Str}
    (hpre : ∀ entry ∈ pre, AsciiEntry entry) (hkey : IsAscii key)
    (hpost : ∀ entry ∈ post, AsciiEntry entry) (n : ℕ) (s : Str) :
    Straddles ((objectHead pre key).length + n)
        (print (.object (pre ++ (key, .string s) :: post))) ↔
      Straddles n (escape s) := by
  rw [print_object_eq, straddles_append_left (isAscii_objectHead hpre hkey),
    straddles_append_right (isAscii_objectTail hpost)]

/-! ## The responses -/

theorem asciiEntry_nat {key : Str} (hkey : IsAscii key) (n : ℕ) : AsciiEntry (key, .nat n) :=
  ⟨hkey, isAscii_printInt n⟩

/-- Entries with numbers. -/
theorem asciiEntries_nat (fields : List (Str × ℕ))
    (hkeys : (fields.map Prod.fst).all (·.all fun c => decide (c.toNat < 128)) = true) :
    ∀ entry ∈ fields.map fun field => (field.1, Json.nat field.2), AsciiEntry entry := by
  refine List.forall_mem_map.mpr fun field hfield => asciiEntry_nat ?_ field.2
  exact forall_of_all (List.all_eq_true.mp hkeys field.1 (List.mem_map_of_mem hfield))

theorem asciiEntry_int {key : Str} (hkey : IsAscii key) (n : ℤ) :
    AsciiEntry (key, .number (.int n)) :=
  ⟨hkey, isAscii_printInt n⟩

/-- The entries in front of the answer, in the response with an id. -/
def entriesBefore (msgId : ℕ) : List (Str × Json) :=
  [("dataLen".toList, .nat 0), ("groupId".toList, .nat 0), ("msgid".toList, .nat msgId)]

theorem asciiEntry_before (msgId : ℕ) : ∀ entry ∈ entriesBefore msgId, AsciiEntry entry :=
  asciiEntries_nat
    [("dataLen".toList, 0), ("groupId".toList, 0), ("msgid".toList, msgId)] rfl

/-- The entries behind the answer. -/
theorem asciiEntry_after :
    ∀ entry ∈ [("sequence".toList, Json.nat 0), ("version".toList, .nat 1)], AsciiEntry entry :=
  asciiEntries_nat [("sequence".toList, 0), ("version".toList, 1)] rfl

theorem withResponse_cgi (msgId : ℕ) (resp : CgiResponse) :
    withResponse msgId resp.fields =
      .object (entriesBefore msgId ++ ("response".toList, .string resp.response) ::
        ("result".toList, .number (.int resp.result)) ::
          [("sequence".toList, .nat 0), ("version".toList, .nat 1)]) := rfl

theorem withResponse_productInfo (xml : Str) :
    withResponse 50008 (ProductInfo.fields ⟨xml⟩) =
      .object (entriesBefore 50008 ++ ("response".toList, .string xml) ::
        [("sequence".toList, .nat 0), ("version".toList, .nat 1)]) := rfl

/-- There are 51 bytes in front of an answer: an id has five digits. -/
theorem length_objectHead {msgId : ℕ} (h : msgId ∈ [50001, 50026, 50006, 50008]) :
    (objectHead (entriesBefore msgId) "response".toList).length = 51 := by
  simp only [List.mem_cons, List.not_mem_nil, or_false] at h
  rcases h with rfl | rfl | rfl | rfl <;> rfl

/-- **The slice of a response** with a result ends at the byte 149 of the answer, as it is escaped. -/
theorem straddles_flatResponse {msgId : ℕ} (h : msgId ∈ [50001, 50026, 50006])
    (resp : CgiResponse) :
    Straddles 200 (flatResponse msgId resp.fields) ↔ Straddles 149 (escape resp.response) := by
  have hpost : ∀ entry ∈ ("result".toList, Json.number (.int resp.result)) ::
      [("sequence".toList, .nat 0), ("version".toList, .nat 1)], AsciiEntry entry :=
    List.forall_mem_cons.mpr ⟨asciiEntry_int (forall_of_all (by decide)) _, asciiEntry_after⟩
  have hlength := length_objectHead (List.mem_append_left [50008] h)
  rw [flatResponse, withResponse_cgi, show 200 = 51 + 149 from rfl, ← hlength]
  exact straddles_object (asciiEntry_before msgId) (forall_of_all (by decide)) hpost 149 _

/-- So does that of the product info. -/
theorem straddles_productInfo (xml : Str) :
    Straddles 200 (flatResponse 50008 (ProductInfo.fields ⟨xml⟩)) ↔ Straddles 149 (escape xml) := by
  have hlength := @length_objectHead 50008 (by simp)
  rw [flatResponse, withResponse_productInfo, show 200 = 51 + 149 from rfl, ← hlength]
  exact straddles_object (asciiEntry_before 50008) (forall_of_all (by decide)) asciiEntry_after 149 _

theorem isAscii_object {entries : List (Str × Json)} (h : ∀ entry ∈ entries, AsciiEntry entry) :
    IsAscii (print (.object entries)) := by
  rw [print, printEntries_eq]
  refine isAscii_append.mpr ⟨isAscii_cons.mpr ⟨by decide, isAscii_intercalate ?_⟩,
    forall_of_all (by decide)⟩
  exact List.forall_mem_map.mpr fun entry hentry => (h entry hentry).isAscii

theorem isAscii_print_array (numbers : List UInt32) :
    IsAscii (print (.array (numbers.map fun n => .nat n.toNat))) := by
  rw [print, printItems_eq, List.map_map]
  refine isAscii_append.mpr ⟨isAscii_cons.mpr ⟨by decide, isAscii_intercalate ?_⟩,
    forall_of_all (by decide)⟩
  exact List.forall_mem_map.mpr fun n _ => isAscii_printInt n.toNat

/-- A response is ASCII if its fields are. -/
theorem isAscii_flatResponse {msgId : ℕ} {cmd : List (Str × Json)}
    (h : ∀ entry ∈ cmd, AsciiEntry entry) : IsAscii (flatResponse msgId cmd) := by
  have henvelope : ∀ entry ∈ [("version".toList, Json.nat 1), ("msgid".toList, .nat msgId),
      ("groupId".toList, .nat 0), ("sequence".toList, .nat 0), ("dataLen".toList, .nat 0)],
      AsciiEntry entry :=
    asciiEntries_nat [("version".toList, 1), ("msgid".toList, msgId), ("groupId".toList, 0),
      ("sequence".toList, 0), ("dataLen".toList, 0)] rfl
  have hnone : ∀ entry ∈ ([] : List (Str × Json)), AsciiEntry entry := by simp
  refine isAscii_object fun entry hentry => ?_
  rcases mem_insertAll hentry with hentry | hentry
  · exact (mem_insertAll hentry).elim (h entry) (hnone entry)
  · exact (mem_insertAll hentry).elim (henvelope entry) (hnone entry)

/-- The values of the init info are numbers, and an array of numbers. -/
theorem isAscii_initInfo (info : InitInfo) : IsAscii (flatResponse 50009 info.fields) := by
  have hvalues : ∀ entry ∈ info.fields, IsAscii (print entry.2) := by
    simpa [InitInfo.fields, Json.nat, isAscii_printInt] using isAscii_print_array info.streamParam
  -- the keys do not depend on the values
  have hkeys : ∀ key ∈ keys info.fields, IsAscii key := by
    have hall : (keys (InitInfo.fields {})).all (·.all fun c => decide (c.toNat < 128)) = true := by
      decide +kernel
    exact fun key hkey => forall_of_all (List.all_eq_true.mp hall key hkey)
  exact isAscii_flatResponse fun entry hentry =>
    ⟨hkeys _ (List.mem_map_of_mem hentry), hvalues entry hentry⟩

/-! ## Base64 -/

/-- The alphabet of standard Base64. -/
def base64Alphabet : Str :=
  "ABCDEFGHIJKLMNOPQRSTUVWXYZabcdefghijklmnopqrstuvwxyz0123456789+/".toList

/-- The character of six bits. -/
def base64Char (n : ℕ) : Char := base64Alphabet.getD (n % 64) '='

/-- Standard Base64 with padding. -/
def base64Encode : List UInt8 → Str
  | a :: b :: c :: rest =>
    let n := (a.toNat * 256 + b.toNat) * 256 + c.toNat
    [base64Char (n / 262144), base64Char (n / 4096), base64Char (n / 64), base64Char n] ++
      base64Encode rest
  | [a, b] =>
    let n := (a.toNat * 256 + b.toNat) * 4
    [base64Char (n / 4096), base64Char (n / 64), base64Char n, '=']
  | [a] =>
    let n := a.toNat * 16
    [base64Char (n / 64), base64Char n, '=', '=']
  | [] => []

example : base64Encode [0x4D, 0x61] = "TWE=".toList := by decide

theorem isAscii_base64Encode (bytes : List UInt8) : IsAscii (base64Encode bytes) := by
  have halphabet : IsAscii base64Alphabet := forall_of_all (by decide)
  have hchar : ∀ n, (base64Char n).toNat < 128 := by
    intro n
    rw [base64Char, List.getD_eq_getElem?_getD]
    cases hget : base64Alphabet[n % 64]? with
    | none => exact (by decide : '='.toNat < 128)
    | some c => exact halphabet c (List.mem_of_getElem? hget)
  fun_induction base64Encode bytes with
  | case1 a b c rest n ih => simp [isAscii_cons, hchar, ih]
  | case2 a b n => simp [isAscii_cons, hchar, isAscii_nil]
  | case3 a n => simp [isAscii_cons, hchar, isAscii_nil]
  | case4 => exact isAscii_nil

theorem isAscii_snapshot (body : List UInt8) :
    IsAscii (flatResponse responseRequestSnap (SnapResponse.fields ⟨0, base64Encode body⟩)) := by
  apply isAscii_flatResponse
  simp only [SnapResponse.fields, List.forall_mem_cons]
  have hkey : IsAscii "img".toList := forall_of_all (by decide)
  exact ⟨asciiEntry_int (forall_of_all (by decide)) 0,
    ⟨hkey, isAscii_printString (isAscii_base64Encode body)⟩, by simp⟩

/-! ## What a camera answers -/

/-- What a camera answers to a request: a status, whose text is ASCII, and a body. -/
structure CameraAnswer where
  status : ℕ
  statusText : Str
  body : List UInt8
  statusText_ascii : IsAscii statusText

namespace CameraAnswer

/-- The text of the body, with replacement characters. -/
def text (answer : CameraAnswer) : Str := fromUtf8Lossy answer.body

/-- The answer as the handlers see it. -/
def response (answer : CameraAnswer) : HttpResponse :=
  ⟨answer.status, answer.statusText, answer.text⟩

end CameraAnswer

/-- The responses that are built from an answer: that of a login, of a CGI request or of a snapshot,
the product info, and the init info with the numbers that were found in it. -/
inductive BuiltFrom (answer : CameraAnswer) : Str → Prop
  | login (isRelogin : Bool) :
    BuiltFrom answer (loginResponse isRelogin (cgiResult answer.response))
  | cgi : BuiltFrom answer (flatResponse responseRequestCgi (cgiResult answer.response).fields)
  | snapshot : BuiltFrom answer
      (flatResponse responseRequestSnap (SnapResponse.fields ⟨0, base64Encode answer.body⟩))
  | productInfo : BuiltFrom answer
      (flatResponse 50008 (ProductInfo.fields ⟨(cgiResult answer.response).response⟩))
  | initInfo (info : InitInfo) : BuiltFrom answer (flatResponse 50009 info.fields)

/-- The responses of a login are built from what the camera answers to it, and to the query for the
product info. -/
theorem builtFrom_loginResponses {isRelogin : Bool} {world : Login.World} {livePort : UInt16}
    {answer info : CameraAnswer}
    (hquery : ∀ resp, world.query .getProductAllInfo = some resp → resp = info.response) :
    ∀ json ∈ loginResponses isRelogin world livePort (cgiResult answer.response),
      BuiltFrom answer json ∨ BuiltFrom info json := by
  intro json hjson
  cases isRelogin with
  | true =>
    simp only [loginResponses, if_true, Option.map_none, Option.toList_none, List.nil_append,
      List.mem_cons, List.not_mem_nil, or_false] at hjson
    rcases hjson with rfl | rfl
    · exact .inl (.login true)
    · exact .inl (.initInfo _)
  | false =>
    simp only [loginResponses, Bool.false_eq_true, if_false, Cgi.gatherInitInfo, List.mem_cons,
      List.mem_append, Option.mem_toList, Option.map_map, List.not_mem_nil, or_false] at hjson
    rcases hjson with rfl | hxml | rfl
    · exact .inl (.login false)
    · obtain ⟨resp, hresp, rfl⟩ := Option.map_eq_some_iff.mp hxml
      rw [hquery resp hresp]
      exact .inr .productInfo
    · exact .inl (.initInfo _)

/-- The response of a CGI request is built from what the camera answers. -/
theorem builtFrom_handleCgi {session : SessionState} {cmdObject : Option Json} {world : World}
    {answer : CameraAnswer} (hget : ∀ url resp, world.get url = .ok resp → resp = answer.response)
    {json : Str} (h : handleCgi session cmdObject world = .ok json) : BuiltFrom answer json := by
  rw [handleCgi] at h
  cases hcmd : cmdObject.bind CgiCmd.fromValue with
  | none =>
    rw [hcmd] at h
    cases h
  | some cmd =>
    rw [hcmd] at h
    rcases hauth : authenticated session with e | ⟨user, pwd, camera⟩
    · rw [hauth] at h
      cases h
    · cases hresp : world.get (cgiUrl camera user pwd cmd) with
      | error e =>
        simp only [hauth, bind, Except.bind, hresp] at h
        cases h
      | ok resp =>
        simp only [hauth, bind, Except.bind, hresp] at h
        rw [← Except.ok.inj h, hget _ resp hresp]
        exact .cgi

/-! ## The answers without a panic -/

/-- A failure is ASCII. -/
theorem isAscii_failure (answer : CameraAnswer) :
    IsAscii (failureXml ("HTTP ".toList ++ answer.statusText)) := by
  have hhttp : IsAscii ("HTTP ".toList ++ answer.statusText) :=
    isAscii_append.mpr ⟨forall_of_all (by decide), answer.statusText_ascii⟩
  exact isAscii_append.mpr ⟨isAscii_append.mpr ⟨forall_of_all (by decide +kernel), hhttp⟩,
    forall_of_all (by decide +kernel)⟩

/-- The excerpts of the responses are cut at the byte 149 of the result, as it is escaped, or in a
text of ASCII characters. -/
theorem responses_isSome_iff (answer : CameraAnswer) :
    (∀ json, BuiltFrom answer json → (excerpt json).isSome = true) ↔
      ¬ Straddles 149 (escape (cgiResult answer.response).response) := by
  constructor
  · intro h
    have hcgi := h _ .cgi
    rwa [excerpt_isSome_iff, straddles_flatResponse (by simp)] at hcgi
  · intro h json hjson
    rw [excerpt_isSome_iff]
    cases hjson with
    | login isRelogin =>
      refine mt (@straddles_flatResponse (responseMsgId isRelogin) ?_ _).mp h
      cases isRelogin with
      | true => exact List.mem_cons_of_mem _ List.mem_cons_self
      | false => exact List.mem_cons_self
    | cgi => exact mt (straddles_flatResponse (by simp) _).mp h
    | snapshot => exact (isAscii_snapshot answer.body).not_straddles 200
    | productInfo => exact mt (straddles_productInfo _).mp h
    | initInfo info => exact (isAscii_initInfo info).not_straddles 200

/-- **No excerpt is a panic** if and only if the answer is no success, or no character lies across
the byte 200 of its body, nor across the byte 149 of its body as it is escaped. -/
theorem excerpts_isSome_iff (answer : CameraAnswer) :
    ((excerpt (cgiResult answer.response).response).isSome = true ∧
        ∀ json, BuiltFrom answer json → (excerpt json).isSome = true) ↔
      (answer.response.isSuccess = true →
        ¬ Straddles 200 answer.text ∧ ¬ Straddles 149 (escape answer.text)) := by
  rw [excerpt_isSome_iff, responses_isSome_iff]
  cases hsuccess : answer.response.isSuccess with
  | true =>
    have hresult : (cgiResult answer.response).response = answer.text := by
      rw [cgiResult, if_pos hsuccess]
      rfl
    rw [hresult]
    exact (imp_iff_right rfl).symm
  | false =>
    have hresult : (cgiResult answer.response).response =
        failureXml ("HTTP ".toList ++ answer.statusText) := by
      rw [cgiResult, if_neg (hsuccess ▸ Bool.false_ne_true)]
      rfl
    have hascii := isAscii_failure answer
    rw [hresult]
    exact iff_of_true ⟨hascii.not_straddles 200, (isAscii_escape hascii).not_straddles 149⟩
      (fun h => absurd h Bool.false_ne_true)

/-- A text with a character of two bytes across its byte 149, and one across its byte 200. -/
def accentedText : Str :=
  List.replicate 148 'a' ++ '\u00E9' :: (List.replicate 49 'a' ++ ['\u00E9'])

theorem straddles_accentedText : Straddles 200 accentedText ∧ Straddles 149 accentedText := by
  have hascii : ∀ n, IsAscii (List.replicate n 'a') := fun n c hc =>
    (List.eq_of_mem_replicate hc) ▸ (by decide : 'a'.toNat < 128)
  have hlength : ∀ n, byteLength (List.replicate n 'a') = n := fun n => by
    rw [byteLength_of_ascii (hascii n), List.length_replicate]
  constructor
  · refine ⟨List.replicate 148 'a' ++ '\u00E9' :: List.replicate 49 'a', '\u00E9', [], ?_, ?_⟩
    · rw [accentedText, List.append_assoc, List.cons_append]
    · rw [byteLength_append, byteLength_cons, hlength, hlength]
      decide
  · refine ⟨List.replicate 148 'a', '\u00E9', _, rfl, ?_⟩
    rw [hlength]
    decide

theorem escape_accentedText : escape accentedText = accentedText := by
  have hself : ∀ c ∈ accentedText, escapeChar c = [c] := by
    intro c hc
    have hcases : c = 'a' ∨ c = '\u00E9' := by
      rw [accentedText, List.mem_append, List.mem_cons, List.mem_append, List.mem_singleton] at hc
      rcases hc with hc | hc | hc | hc
      · exact .inl (List.eq_of_mem_replicate hc)
      · exact .inr hc
      · exact .inl (List.eq_of_mem_replicate hc)
      · exact .inr hc
    rcases hcases with rfl | rfl <;> rfl
  rw [escape, List.flatMap_congr hself, List.flatMap_singleton']

/-- **A device name with an accent** makes the log of a login panic, and that of its response. -/
theorem excerpts_panic :
    ∃ answer : CameraAnswer, answer.status = 200 ∧ answer.body = encodeUtf8 accentedText ∧
      excerpt (cgiResult answer.response).response = none ∧
      excerpt (loginResponse false (cgiResult answer.response)) = none := by
  obtain ⟨hlogin, hresponse⟩ := straddles_accentedText
  rw [← escape_accentedText] at hresponse
  have hstatus : IsAscii "200 OK".toList := forall_of_all (by decide)
  refine ⟨⟨200, "200 OK".toList, encodeUtf8 accentedText, hstatus⟩, rfl, rfl, ?_⟩
  have htext : fromUtf8Lossy (encodeUtf8 accentedText) = accentedText :=
    fromUtf8Lossy_eq (decodeUtf8_encodeUtf8 accentedText)
  have hanswer : cgiResult (CameraAnswer.response
      ⟨200, "200 OK".toList, encodeUtf8 accentedText, hstatus⟩) = ⟨0, accentedText⟩ := by
    rw [CameraAnswer.response, CameraAnswer.text, htext]
    rfl
  rw [hanswer]
  refine ⟨?_, ?_⟩
  · rw [← Option.not_isSome_iff_eq_none, excerpt_isSome_iff, not_not]
    exact hlogin
  · rw [← Option.not_isSome_iff_eq_none, excerpt_isSome_iff, not_not]
    exact (straddles_flatResponse List.mem_cons_self ⟨0, accentedText⟩).mpr hresponse

end Dispatch

end Fosipcore
