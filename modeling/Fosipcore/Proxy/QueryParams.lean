import Fosipcore.Library.UrlEncoded
import Fosipcore.Net
import Fosipcore.Proxy.RequestUrls

/-!
# Query parameters

The camera reads the query of a request as form parameters. The proxy puts user name and password
into it as they are, and so it does with a request that the page sends as a full path, which it
decodes to recognise it and then forwards in its decoded form. Both arrive if and only if the texts
stand for themselves in a query.

## Main definitions

* `SocketAddr.display`: the address of the camera in a URL
* `EncodedText`, `fullPath`: what the page sends
* `forwardedPath`: what is forwarded of it

## Main results

* `parseForm_credentials_iff`: the credentials that arrive
* `parseForm_fullPath`: what the page asks for
* `parseForm_forwardedPath_iff`: the parameters that arrive
-/

namespace Fosipcore

open Text Ip Uri

/-- The text of an address and a port. -/
def SocketAddr.display (addr : SocketAddr) : Str :=
  match addr.ip with
  | .v4 x => x.display ++ ':' :: numeral addr.port.toNat
  | .v6 x => '[' :: (x.display ++ ']' :: ':' :: numeral addr.port.toNat)

/-- A question mark or a hash is in no address. -/
theorem SocketAddr.not_mem_display (addr : SocketAddr) {c : Char} (hc : c = '?' ∨ c = '#') :
    c ∉ addr.display := by
  have haddress : isAddressChar c = false := by rcases hc with rfl | rfl <;> decide
  have hip : ∀ ip : IpAddr, c ∉ ip.display := by
    intro ip hmem
    rw [isAddressChar_of_mem hmem] at haddress
    cases haddress
  have hport : c ∉ numeral addr.port.toNat := by
    intro hmem
    rw [isAddressChar_of_isDigit (isDigit_of_mem_numeral hmem)] at haddress
    cases haddress
  rw [display]
  cases haddr : addr.ip with
  | v4 x =>
    have hx := hip (.v4 x)
    simp only [List.mem_append, List.mem_cons, not_or]
    exact ⟨hx, by rcases hc with rfl | rfl <;> decide, hport⟩
  | v6 x =>
    have hx := hip (.v6 x)
    simp only [List.mem_append, List.mem_cons, not_or]
    rcases hc with rfl | rfl <;> exact ⟨by decide, hx, by decide, by decide, hport⟩

namespace Cgi

/-! ## Credentials -/

/-- The parameters of the login request. -/
def loginParams (user pwd : Str) : List (Str × Str) :=
  [("usrName".toList, user), ("pwd".toList, pwd), ("cmd".toList, "logIn".toList),
    ("privilege".toList, "2".toList)]

/-- The parameters of the snapshot request. -/
def snapshotParams (user pwd : Str) : List (Str × Str) :=
  [("usr".toList, user), ("pwd".toList, pwd)]

theorem requestUrl_eq (camera path userKey user pwd more : Str) :
    requestUrl path userKey camera user pwd more =
      ("http://".toList ++ camera ++ "/cgi-bin/".toList ++ path) ++
        '?' :: (userKey ++ '=' :: (user ++ ("&pwd=".toList ++ (pwd ++ more)))) := by
  unfold requestUrl
  generalize "http://".toList = scheme
  generalize "/cgi-bin/".toList = directory
  generalize "&pwd=".toList = separator
  simp only [List.append_assoc, List.cons_append]

theorem query_requestUrl (camera : SocketAddr) {path : Str} (hpath : '?' ∉ path ∧ '#' ∉ path)
    (userKey user pwd more : Str) :
    query (requestUrl path userKey camera.display user pwd more) =
      upToHash (userKey ++ '=' :: (user ++ ("&pwd=".toList ++ (pwd ++ more)))) := by
  have hfront : ∀ c, c = '?' ∨ c = '#' → c ∉ path →
      c ∉ "http://".toList ++ camera.display ++ "/cgi-bin/".toList ++ path := by
    intro c hc hpath
    simp only [List.mem_append, not_or]
    refine ⟨⟨⟨?_, camera.not_mem_display hc⟩, ?_⟩, hpath⟩
    · rcases hc with rfl | rfl <;> decide
    · rcases hc with rfl | rfl <;> decide
  rw [requestUrl_eq, query_eq (hfront '?' (Or.inl rfl) hpath.1) (hfront '#' (Or.inr rfl) hpath.2)]

theorem query_proxyLoginUrl (camera : SocketAddr) (user pwd : Str) :
    query (proxyLoginUrl camera.display user pwd) = upToHash (joinForm (loginParams user pwd)) := by
  rw [proxyLoginUrl, query_requestUrl camera (by decide), loginParams, joinForm_cons, joinMore,
    if_neg (List.cons_ne_nil _ _), joinForm_cons]
  rfl

theorem query_proxySnapshotUrl (camera : SocketAddr) (user pwd : Str) :
    query (proxySnapshotUrl camera.display user pwd) =
      upToHash (joinForm (snapshotParams user pwd)) := by
  rw [proxySnapshotUrl, query_requestUrl camera (by decide), snapshotParams, joinForm_cons, joinMore,
    if_neg (List.cons_ne_nil _ _), joinForm_cons]
  rfl

/-- **The credentials that arrive** are those that stand for themselves in a query. -/
theorem parseForm_credentials_iff (camera : SocketAddr) (user pwd : Str) :
    (parseForm (query (proxyLoginUrl camera.display user pwd)) = loginParams user pwd ∧
      parseForm (query (proxySnapshotUrl camera.display user pwd)) = snapshotParams user pwd) ↔
      Verbatim user ∧ Verbatim pwd := by
  have hlogin : (∀ p ∈ loginParams user pwd, VerbatimPair p) ↔ Verbatim user ∧ Verbatim pwd := by
    have hfixed : Verbatim "logIn".toList ∧ Verbatim "2".toList := by decide
    have hnames : (Verbatim "usrName".toList ∧ '=' ∉ "usrName".toList) ∧
        (Verbatim "pwd".toList ∧ '=' ∉ "pwd".toList) ∧
        (Verbatim "cmd".toList ∧ '=' ∉ "cmd".toList) ∧
        Verbatim "privilege".toList ∧ '=' ∉ "privilege".toList := by
      decide
    unfold loginParams
    simp only [List.forall_mem_cons, VerbatimPair, hfixed, hnames, true_and, not_false_eq_true,
      List.not_mem_nil, false_implies, implies_true, and_true]
  have hsnapshot : (∀ p ∈ snapshotParams user pwd, VerbatimPair p) ↔
      Verbatim user ∧ Verbatim pwd := by
    have hnames : (Verbatim "usr".toList ∧ '=' ∉ "usr".toList) ∧
        Verbatim "pwd".toList ∧ '=' ∉ "pwd".toList := by
      decide
    unfold snapshotParams
    simp only [List.forall_mem_cons, VerbatimPair, hnames, true_and, not_false_eq_true,
      List.not_mem_nil, false_implies, implies_true, and_true]
  rw [query_proxyLoginUrl, query_proxySnapshotUrl, parseForm_joinForm_iff, parseForm_joinForm_iff,
    hlogin, hsnapshot, and_self]

def sampleCamera : SocketAddr := ⟨.v4 ⟨10, 0, 0, 7⟩, 88⟩

/-- A password with an ampersand sets the command. -/
theorem not_parseForm_credentials :
    ¬ ∀ (camera : SocketAddr) (user pwd : Str),
      parseForm (query (proxyLoginUrl camera.display user pwd)) = loginParams user pwd ∧
        parseForm (query (proxySnapshotUrl camera.display user pwd)) = snapshotParams user pwd := by
  intro h
  have hlogin := (h sampleCamera "admin".toList "a&cmd=reboot".toList).1
  revert hlogin
  decide +kernel

/-! ## Full paths -/

/-- The characters that the page does not percent-encode. -/
def isUnreserved (c : Char) : Bool := c.isAlphanum || c ∈ "-_.!~*'()".toList

/-- A name or a value, and how the page writes it: every other character as its escapes. -/
structure EncodedText where
  text : Str
  written : Str
  is_written : ∀ c ∈ written, c = '%' ∨ isUnreserved c = true
  decodes : percentDecode written = encodeUtf8 text

/-- The names and values as they are written. -/
def writtenParams (params : List (EncodedText × EncodedText)) : List (Str × Str) :=
  params.map fun p => (p.1.written, p.2.written)

/-- The names and values that are meant. -/
def meantParams (params : List (EncodedText × EncodedText)) : List (Str × Str) :=
  params.map fun p => (p.1.text, p.2.text)

def cgiProxyPath : Str := "/cgi-bin/CGIProxy.fcgi".toList

/-- **The full path that the page sends.** -/
def fullPath (params : List (EncodedText × EncodedText)) : Str :=
  cgiProxyPath ++ '?' :: joinForm (writtenParams params)

/-- **The path that is forwarded** to the camera, if the command is a full path, which may be
percent-encoded as a whole. -/
def forwardedPath (cgi : Str) : Option Str :=
  let cgiDecoded := (decode cgi).getD []
  if "/cgi-bin/".toList.isPrefixOf cgiDecoded || "/CGIProxy".toList.isPrefixOf cgiDecoded then
    some (cgiDecoded.dropWhile (· = '/'))
  else none

theorem isUnreserved_facts {c : Char} (h : c = '%' ∨ isUnreserved c = true) :
    c ∉ ['&', '#', '=', '+', '?'] := by
  intro hmem
  simp only [List.mem_cons, List.not_mem_nil, or_false] at hmem
  rcases hmem with rfl | rfl | rfl | rfl | rfl <;> revert h <;> decide

theorem EncodedText.not_mem (t : EncodedText) {c : Char} (hc : c ∈ ['&', '#', '=', '+', '?']) :
    c ∉ t.written :=
  fun hmem => isUnreserved_facts (t.is_written c hmem) hc

theorem EncodedText.decodePart_written (t : EncodedText) : decodePart t.written = t.text := by
  have hplus : t.written.map plusToBlank = t.written := by
    rw [List.map_congr_left fun c hc => plusToBlank_of_ne ?_, List.map_id']
    rintro rfl
    exact t.not_mem (by decide) hc
  rw [decodePart, hplus, t.decodes, fromUtf8Lossy_eq (decodeUtf8_encodeUtf8 t.text)]

/-- What is written is decoded pair by pair. -/
theorem percentDecode_joinForm (params : List (EncodedText × EncodedText)) :
    percentDecode (joinForm (writtenParams params)) =
      encodeUtf8 (joinForm (meantParams params)) := by
  induction params with
  | nil => rfl
  | cons p params ih =>
    have hvalue : percentDecode (p.2.written ++ joinMore (writtenParams params)) =
        encodeUtf8 (p.2.text ++ joinMore (meantParams params)) := by
      cases params with
      | nil => exact (congrArg percentDecode (List.append_nil _)).trans (p.2.decodes.trans
          (congrArg encodeUtf8 (List.append_nil _).symm))
      | cons q params =>
        have hwritten : joinMore (writtenParams (q :: params)) =
            '&' :: joinForm (writtenParams (q :: params)) := if_neg (List.cons_ne_nil _ _)
        have hmeant : joinMore (meantParams (q :: params)) =
            '&' :: joinForm (meantParams (q :: params)) := if_neg (List.cons_ne_nil _ _)
        rw [hwritten, hmeant, percentDecode_append_cons (by decide) (by decide), p.2.decodes, ih,
          encodeUtf8_append, encodeUtf8_cons, List.append_assoc]
    rw [writtenParams, List.map_cons, joinForm_cons, ← writtenParams, meantParams, List.map_cons,
      joinForm_cons, ← meantParams, percentDecode_append_cons (by decide) (by decide), p.1.decodes,
      hvalue, List.append_assoc, ← encodeUtf8_cons, ← encodeUtf8_append]

/-- **What the page asks for.** -/
theorem parseForm_fullPath (params : List (EncodedText × EncodedText)) :
    parseForm (query (fullPath params)) = meantParams params := by
  rw [fullPath, query_eq (by decide) (by decide)]
  induction params with
  | nil => rfl
  | cons p params ih =>
    have hname : ∀ c ∈ ['&', '#', '='], c ∉ p.1.written := fun c hc =>
      p.1.not_mem (forall_of_all (by decide) c hc)
    have hvalue : ∀ c ∈ ['&', '#'], c ∉ p.2.written := fun c hc =>
      p.2.not_mem (forall_of_all (by decide) c hc)
    rw [writtenParams, List.map_cons, ← writtenParams, parseForm_joinForm_cons hname hvalue, ih,
      p.1.decodePart_written, p.2.decodePart_written]
    rfl

theorem decode_fullPath (params : List (EncodedText × EncodedText)) :
    decode (fullPath params) = some (cgiProxyPath ++ '?' :: joinForm (meantParams params)) := by
  have hpath : percentDecode cgiProxyPath = encodeUtf8 cgiProxyPath := percentDecode_eq (by decide)
  rw [decode, fullPath, percentDecode_append_cons (by decide) (by decide), hpath,
    percentDecode_joinForm, List.append_assoc, ← encodeUtf8_cons, ← encodeUtf8_append,
    decodeUtf8_encodeUtf8]

theorem forwardedPath_fullPath (params : List (EncodedText × EncodedText)) :
    forwardedPath (fullPath params) =
      some ("cgi-bin/CGIProxy.fcgi".toList ++ '?' :: joinForm (meantParams params)) := by
  rw [forwardedPath, decode_fullPath, Option.getD_some]
  rfl

/-- **The parameters that arrive** are those that stand for themselves in a query, once they are
decoded. -/
theorem parseForm_forwardedPath_iff (params : List (EncodedText × EncodedText)) :
    (forwardedPath (fullPath params)).map (fun path => parseForm (query path)) =
        some (meantParams params) ↔
      ∀ p ∈ meantParams params, VerbatimPair p := by
  rw [forwardedPath_fullPath, Option.map_some, Option.some_inj,
    query_eq (by decide) (by decide), parseForm_joinForm_iff]

/-- The command to set the network of the camera. -/
def ssidParam : EncodedText × EncodedText :=
  (⟨"ssid".toList, "ssid".toList, forall_of_all (by decide), by decide⟩,
    ⟨"R&D".toList, "R%26D".toList, forall_of_all (by decide), by decide⟩)

/-- An ampersand in the name of a network ends the value. -/
theorem not_parseForm_forwardedPath :
    ¬ ∀ params : List (EncodedText × EncodedText),
      (forwardedPath (fullPath params)).map (fun path => parseForm (query path)) =
        some (meantParams params) := by
  intro h
  have hparams := h [ssidParam]
  revert hparams
  decide +kernel

end Cgi

end Fosipcore
