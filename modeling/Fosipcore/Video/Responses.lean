import Fosipcore.Library.Utf8
import Fosipcore.Video.Interleaved

/-!
# Responses back to back

Two places read the response to a request: one for all requests, and one for the authorised DESCRIBE
alone. Of well-formed responses that come one behind another, both return each one exactly, whatever
chunks the network makes of them, and leave the bytes behind it.

## Main definitions

* `readResponseText`, `readAuthResponse`: the two readers
* `HeaderLine`, `Response`: well-formed responses
* `Framed`: responses are read one after another, by both readers

## Main results

* `readAuthResponse_eq`: the readers are the same function
* `Response.lines_headers`: the header lines are found in the header block
* `responses_framed`: well-formed responses are read exactly
-/

namespace Fosipcore

open Text ByteStream

/-! ## The two readers -/

/-- A response with its body as text. -/
structure RtspText where
  statusCode : UInt16
  headers : Str
  body : Str
  deriving DecidableEq

/-- `read_response`, with the body as text. -/
def readResponseText (r : BufReader) : Option (RtspText × BufReader) :=
  (readResponse r).map fun (response, r) =>
    (⟨response.statusCode, response.headers, fromUtf8Lossy response.body⟩, r)

/-- The loop over the header lines in `digest_describe`. -/
def readAuthHeaders : ℕ → Str → BufReader → Option (Str × BufReader)
  | 0, _, _ => none
  | fuel + 1, headers, r => do
    let (line, r) ← readLine r
    if trim line = [] then some (headers, r) else readAuthHeaders fuel (headers ++ line) r

/-- The reader in `digest_describe`. Its timeouts are left out. -/
def readAuthResponse (r : BufReader) : Option (RtspText × BufReader) := do
  let (statusLine, r) ← readLine r
  let statusCode ← parseStatusCode statusLine
  let (headers, r) ← readAuthHeaders (r.bytes.length + 1) [] r
  let contentLength :=
    ((extractHeader headers "Content-Length".toList).bind (parseUnsigned (2 ^ 64 - 1))).getD 0
  let (body, r) ← if 0 < contentLength then r.readExact contentLength else some ([], r)
  some (⟨statusCode, headers, fromUtf8Lossy body⟩, r)

theorem readAuthHeaders_eq (fuel : ℕ) (headers : Str) (r : BufReader) :
    readAuthHeaders fuel headers r = readHeaders fuel headers r := by
  induction fuel generalizing headers r with
  | zero => rfl
  | succ fuel ih => simp only [readAuthHeaders, readHeaders, ih]

/-- **The two readers are the same function.** -/
theorem readAuthResponse_eq (r : BufReader) : readAuthResponse r = readResponseText r := by
  simp only [readAuthResponse, readResponseText, readResponse, readAuthHeaders_eq,
    Option.bind_eq_bind, Option.map_bind, Function.comp_def]
  refine Option.bind_congr fun _ _ => Option.bind_congr fun _ _ => Option.bind_congr fun _ _ => ?_
  unfold contentLength
  split_ifs
  · rw [Option.map_bind]
    rfl
  · rfl

/-! ## Well-formed responses -/

/-- The end of a line. -/
def lineEnd (crlf : Bool) : Str := if crlf then ['\r', '\n'] else ['\n']

/-- A header line: text that is not blank and has no carriage return but at its end. -/
structure HeaderLine where
  bytes : List UInt8
  content : Str
  crlf : Bool
  is_line : IsLine bytes (content ++ lineEnd crlf)
  no_return : '\r' ∉ content
  not_blank : trim content ≠ []

namespace HeaderLine

def text (line : HeaderLine) : Str := line.content ++ lineEnd line.crlf

/-- The value of a header with a name. -/
def value (name : Str) (line : HeaderLine) : Option Str := do
  let (key, value) ← splitOnce [':'] line.content
  if asciiLower (trim key) = asciiLower name then some (trim value) else none

theorem text_not_blank (line : HeaderLine) : trim line.text ≠ [] := by
  intro h
  apply line.not_blank
  rw [trim_eq_nil_iff] at h ⊢
  exact fun c hc => h c (List.mem_append_left _ hc)

/-- The content of a line has no line feed. -/
theorem no_newline (line : HeaderLine) : '\n' ∉ line.content := by
  obtain ⟨bytes, hbytes, hnewline⟩ := line.is_line.ends
  have hdecoded := line.is_line.decoded
  rw [hbytes] at hdecoded
  obtain ⟨content, heq, hcontent⟩ := decodeUtf8_concat_newline hdecoded
  have hnot := newline_not_mem_of_decodeUtf8 hcontent hnewline
  cases hcrlf : line.crlf with
  | true =>
    have hsplit : line.content ++ ['\r'] = content := by
      have happend : (line.content ++ ['\r']) ++ ['\n'] = content ++ ['\n'] := by
        rw [List.append_assoc, ← heq, hcrlf]
        rfl
      exact List.append_inj_left' happend rfl
    rw [← hsplit, List.mem_append, not_or] at hnot
    exact hnot.1
  | false =>
    rw [hcrlf] at heq
    rw [← List.append_inj_left' heq rfl] at hnot
    exact hnot

/-- The first line of a text that begins with a header line. -/
theorem lines_text_append (line : HeaderLine) (rest : Str) :
    lines (line.text ++ rest) = line.content :: lines rest := by
  rw [text, List.append_assoc]
  cases line.crlf with
  | true => exact lines_crlf line.no_newline rest
  | false => exact lines_lf line.no_newline line.no_return rest

end HeaderLine

/-- The text is a decimal numeral of the number. -/
def IsNumeral (text : Str) (n : ℕ) : Prop :=
  text ≠ [] ∧ text.all Char.isDigit = true ∧ decimal text = n

/-- A well-formed response: a status line with a code, header lines, a blank line, and a body of the
length that the first `Content-Length` says, or none where there is no such header. -/
structure Response where
  statusLine : List UInt8
  statusText : Str
  code : UInt16
  headerLines : List HeaderLine
  blankLine : List UInt8
  blankText : Str
  body : List UInt8
  status_line : IsLine statusLine statusText
  status_code : ∃ version rest, splitWhitespace statusText = version :: numeral code.toNat :: rest
  blank_line : IsLine blankLine blankText
  blank : trim blankText = []
  content_length : (headerLines.findSome? (HeaderLine.value "Content-Length".toList)).elim
    (body = []) (IsNumeral · body.length)
  length_body : body.length < 2 ^ 64

namespace Response

/-- The header lines and the blank line. -/
def headerBlock (response : Response) : List UInt8 :=
  response.headerLines.flatMap HeaderLine.bytes ++ response.blankLine

def bytes (response : Response) : List UInt8 :=
  response.statusLine ++ response.headerBlock ++ response.body

def headers (response : Response) : Str := response.headerLines.flatMap HeaderLine.text

/-- What is to be read of a response. -/
def text (response : Response) : RtspText :=
  ⟨response.code, response.headers, fromUtf8Lossy response.body⟩

theorem parse_status (response : Response) :
    parseStatusCode response.statusText = some response.code := by
  obtain ⟨version, rest, hwords⟩ := response.status_code
  have hle : response.code.toNat ≤ 65535 := Nat.le_of_lt_succ response.code.toNat_lt
  rw [parseStatusCode, hwords]
  simp only [parseUnsigned_numeral hle, Option.map_some, UInt16.ofNat_toNat]

/-- Header lines and a blank line are a header block. -/
theorem isHeaderBlock (response : Response) :
    HeaderBlock response.headerBlock response.headers := by
  unfold headerBlock headers
  induction response.headerLines with
  | nil => exact .blank _ _ response.blank_line response.blank
  | cons line rest ih =>
    rw [List.flatMap_cons, List.flatMap_cons, List.append_assoc]
    exact .header _ _ _ _ line.is_line line.text_not_blank ih

/-- **The header lines** are found in the header block. -/
theorem lines_headers (response : Response) :
    lines response.headers = response.headerLines.map HeaderLine.content := by
  unfold headers
  induction response.headerLines with
  | nil => rfl
  | cons line rest ih => rw [List.flatMap_cons, line.lines_text_append, ih, List.map_cons]

/-- The length of the body is read from the header block. -/
theorem length_body_eq (response : Response) :
    response.body.length = contentLength response.headers := by
  have hextract : extractHeader response.headers "Content-Length".toList =
      response.headerLines.findSome? (HeaderLine.value "Content-Length".toList) := by
    rw [extractHeader, response.lines_headers, List.findSome?_map]
    rfl
  have hlength := response.content_length
  rw [contentLength, hextract]
  cases hvalue : response.headerLines.findSome? (HeaderLine.value "Content-Length".toList) with
  | none =>
    rw [hvalue] at hlength
    exact congrArg List.length hlength
  | some value =>
    rw [hvalue] at hlength
    obtain ⟨hne, hdigits, hdecimal⟩ := hlength
    have hle : decimal value ≤ 2 ^ 64 - 1 :=
      hdecimal.trans_le (Nat.le_sub_one_of_lt response.length_body)
    rw [Option.bind_some, parseUnsigned_digits hne hdigits hle]
    exact hdecimal.symm

variable {r : BufReader}

/-- A response is read, and what is behind it is left. -/
theorem readResponseText_eq (response : Response) {rest : List UInt8}
    (hcapacity : 0 < r.capacity) (hbytes : r.bytes = response.bytes ++ rest) :
    ∃ r', readResponseText r = some (response.text, r') ∧ r'.capacity = r.capacity ∧
      r'.bytes = rest := by
  have hroom : ∀ t, 0 < t →
      0 < BufReader.headBodyRoom r.capacity response.body.length t := by
    intro t _
    unfold BufReader.headBodyRoom BufReader.exactRoom
    split_ifs <;> omega
  have hsplit : r.bytes =
      response.statusLine ++ (response.headerBlock ++ (response.body ++ rest)) := by
    rw [hbytes, bytes, List.append_assoc, List.append_assoc]
  have hread := readResponse_eq response.status_line response.parse_status
    response.isHeaderBlock response.length_body_eq hcapacity hsplit
  refine ⟨_, by rw [readResponseText, hread]; rfl, BufReader.capacity_consume _ _ _, ?_⟩
  rw [BufReader.bytes_consume hroom, hbytes, bytes, List.drop_left]

end Response

/-- The bytes of responses that are sent one behind another. -/
def encodeResponses (responses : List Response) : List UInt8 := responses.flatMap Response.bytes

/-- The responses are read one after another, by either reader, and each read leaves exactly the
bytes behind its response. -/
def Framed (rest : List UInt8) : List Response → BufReader → Prop
  | [], r => r.bytes = rest
  | response :: responses, r => ∃ r', readResponseText r = some (response.text, r') ∧
      readAuthResponse r = some (response.text, r') ∧
      r'.bytes = encodeResponses responses ++ rest ∧ Framed rest responses r'

/-- **Well-formed responses are read exactly**, whatever the chunks they come in. -/
theorem responses_framed (responses : List Response) (rest : List UInt8) {r : BufReader}
    (hcapacity : 0 < r.capacity) (hbytes : r.bytes = encodeResponses responses ++ rest) :
    Framed rest responses r := by
  induction responses generalizing r with
  | nil => exact hbytes
  | cons response responses ih =>
    have hsplit : r.bytes = response.bytes ++ (encodeResponses responses ++ rest) := by
      rw [hbytes, ← List.append_assoc]
      rfl
    obtain ⟨r', hread, hcapacity', hbytes'⟩ := response.readResponseText_eq hcapacity hsplit
    refine ⟨r', hread, (readAuthResponse_eq r).trans hread, hbytes', ?_⟩
    exact ih (hcapacity'.symm ▸ hcapacity) hbytes'

/-- The length of a body of four bytes. -/
def sampleHeader : HeaderLine where
  bytes := asciiBytes "content-length: 4\r\n"
  content := "content-length: 4".toList
  crlf := true
  is_line := ⟨⟨asciiBytes "content-length: 4\r", by decide +kernel, by decide +kernel⟩,
    by decide +kernel⟩
  no_return := by decide
  not_blank := by decide +kernel

theorem trim_crlf : trim "\r\n".toList = [] := by decide +kernel

/-- A response whose body looks like the end of a header block. -/
def bodyResponse : Response where
  statusLine := asciiBytes "RTSP/1.0 200 OK\r\n"
  statusText := "RTSP/1.0 200 OK\r\n".toList
  code := 200
  headerLines := [sampleHeader]
  blankLine := asciiBytes "\r\n"
  blankText := "\r\n".toList
  body := asciiBytes "\r\n\r\n"
  status_line := isLine_ok
  status_code := ⟨"RTSP/1.0".toList, ["OK".toList], by decide +kernel⟩
  blank_line := isLine_blank
  blank := trim_crlf
  content_length := ⟨by decide +kernel, by decide +kernel, by decide +kernel⟩
  length_body := by decide +kernel

/-- Two responses and a frame, cut in the middle of the first line. -/
theorem responses_framed_twice :
    Framed [0x24] [bodyResponse, bodyResponse]
      ⟨8192, [], ⟨encodeResponses [bodyResponse, bodyResponse] ++ [0x24], [3]⟩⟩ :=
  responses_framed _ _ (by simp) rfl

end Fosipcore
