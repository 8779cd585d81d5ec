import Fosipcore.Library.Utf8
import Fosipcore.Proxy.Cgi

/-!
# The body of a camera response

The body comes in chunks, and is gathered up to a cap. A length that is declared beyond the cap is
refused at once; but a camera need not tell the length, or the truth about it, so the buffer is
measured behind every chunk. What comes of a body does not depend on how it is cut into chunks.

## Main definitions

* `RawResponse`: a response of a camera, as it comes in
* `RawResponse.readCapped`: the body, up to the cap
* `RawResponse.bufferSizes`: how much has been gathered, behind every chunk
* `RawResponse.http`: the response with its text

## Main results

* `RawResponse.readCapped_spec`: what comes of a body, and how much of it is held
* `RawResponse.readCapped_iff`: the bodies that are returned
-/

namespace Fosipcore

namespace Cgi

open Text

/-- Hard cap on any single camera response body. -/
def maxCameraResponseBytes : ℕ := 16 * 1024 * 1024

/-- A response of a camera, as it comes in: what the reads of its body return, until there is
nothing left. -/
structure RawResponse where
  status : ℕ
  statusText : Str
  contentLength : Option ℕ
  chunks : List (Except Str (List UInt8))

namespace RawResponse

/-! ## Errors -/

def lengthError (len : ℕ) : Str :=
  "camera response too large: Content-Length ".toList ++ numeral len ++ " > ".toList ++
    numeral maxCameraResponseBytes ++ " bytes".toList

def readError : Str := "failed to read camera response body".toList

def sizeError : Str :=
  "camera response too large: exceeded ".toList ++ numeral maxCameraResponseBytes ++
    " bytes".toList

/-! ## Reading -/

/-- The loop over the chunks. -/
def readChunks (body : List UInt8) : List (Except Str (List UInt8)) → Except Str (List UInt8)
  | [] => .ok body
  -- the context of an error stands in the place of its text
  | .error _ :: _ => .error readError
  | .ok chunk :: chunks =>
    let body := body ++ chunk
    if maxCameraResponseBytes < body.length then .error sizeError else readChunks body chunks

/-- Read a camera response body into memory with a hard size cap. -/
def readCapped (resp : RawResponse) : Except Str (List UInt8) :=
  match resp.contentLength with
  | some len =>
    if maxCameraResponseBytes < len then .error (lengthError len) else readChunks [] resp.chunks
  | none => readChunks [] resp.chunks

/-- The length of the buffer behind every chunk. -/
def bufferSizes (body : List UInt8) : List (Except Str (List UInt8)) → List ℕ
  | [] => []
  | .error _ :: _ => []
  | .ok chunk :: chunks =>
    let body := body ++ chunk
    body.length :: if maxCameraResponseBytes < body.length then [] else bufferSizes body chunks

/-- The response with its text, where bytes that are no UTF-8 are replaced. -/
def http (resp : RawResponse) : Except Str HttpResponse := do
  let body ← resp.readCapped
  return ⟨resp.status, resp.statusText, fromUtf8Lossy body⟩

/-! ## What comes of a body -/

/-- The reads of a body return chunks, and end with the body or with an error. -/
theorem exists_parts (chunks : List (Except Str (List UInt8))) :
    ∃ (parts : List (List UInt8)) (tail : List (Except Str (List UInt8))),
      chunks = parts.map .ok ++ tail ∧ (tail = [] ∨ ∃ e rest, tail = .error e :: rest) := by
  induction chunks with
  | nil => exact ⟨[], [], rfl, .inl rfl⟩
  | cons chunk chunks ih =>
    cases chunk with
    | error e => exact ⟨[], _, rfl, .inr ⟨e, chunks, rfl⟩⟩
    | ok chunk =>
      obtain ⟨parts, tail, rfl, htail⟩ := ih
      exact ⟨chunk :: parts, tail, rfl, htail⟩

/-- **The loop** over chunks and what is behind them. -/
theorem readChunks_append {body : List UInt8} (hbody : body.length ≤ maxCameraResponseBytes)
    (parts : List (List UInt8)) {tail : List (Except Str (List UInt8))}
    (htail : tail = [] ∨ ∃ e rest, tail = .error e :: rest) :
    readChunks body (parts.map .ok ++ tail) =
      if maxCameraResponseBytes < (body ++ parts.flatten).length then .error sizeError
      else if tail = [] then .ok (body ++ parts.flatten)
      else .error readError := by
  induction parts generalizing body with
  | nil =>
    rw [List.flatten_nil, List.append_nil, if_neg (Nat.not_lt.mpr hbody)]
    rcases htail with rfl | ⟨e, rest, rfl⟩
    · rfl
    · rfl
  | cons chunk parts ih =>
    rw [List.map_cons, List.cons_append, readChunks, List.flatten_cons, ← List.append_assoc]
    by_cases hcap : maxCameraResponseBytes < (body ++ chunk).length
    · -- what comes behind makes the body no shorter
      have hall : maxCameraResponseBytes < (body ++ chunk ++ parts.flatten).length := by
        rw [List.length_append]
        omega
      rw [if_pos hcap, if_pos hall]
    · rw [if_neg hcap, ih (Nat.not_lt.mp hcap)]

/-- The buffer is within the cap before every chunk. -/
theorem bufferSizes_le {body : List UInt8} (hbody : body.length ≤ maxCameraResponseBytes)
    {chunks : List (Except Str (List UInt8))} {limit : ℕ}
    (hchunks : ∀ chunk, .ok chunk ∈ chunks → chunk.length ≤ limit) :
    ∀ n ∈ bufferSizes body chunks, n ≤ maxCameraResponseBytes + limit := by
  induction chunks generalizing body with
  | nil => exact List.forall_mem_nil _
  | cons chunk chunks ih =>
    cases chunk with
    | error e => exact List.forall_mem_nil _
    | ok chunk =>
      have hchunk : chunk.length ≤ limit := hchunks chunk List.mem_cons_self
      rw [bufferSizes]
      refine List.forall_mem_cons.mpr ⟨?_, ?_⟩
      · rw [List.length_append]
        omega
      · split_ifs with hcap
        · exact List.forall_mem_nil _
        · refine ih (Nat.not_lt.mp hcap) fun chunk hmem => ?_
          exact hchunks chunk (List.mem_cons_of_mem _ hmem)

/-- A declared length within the cap does not count. -/
theorem readCapped_of_length (resp : RawResponse)
    (h : ∀ len ∈ resp.contentLength, len ≤ maxCameraResponseBytes) :
    resp.readCapped = readChunks [] resp.chunks := by
  obtain ⟨status, statusText, contentLength, chunks⟩ := resp
  cases contentLength with
  | none => rfl
  | some len => exact if_neg (Nat.not_lt.mpr (h len rfl))

/-- **What comes of a body**. A declared length beyond the cap is refused. Otherwise the chunks up to
the end or to the first error are gathered: they are refused if they are beyond the cap, returned if
they are all, and lost with the error. How they are cut does not matter, and no more is held than
the cap and one chunk. -/
theorem readCapped_spec (resp : RawResponse) :
    (∀ len ∈ resp.contentLength, maxCameraResponseBytes < len →
      resp.readCapped = .error (lengthError len)) ∧
    ((∀ len ∈ resp.contentLength, len ≤ maxCameraResponseBytes) →
      ∃ (parts : List (List UInt8)) (tail : List (Except Str (List UInt8))),
        resp.chunks = parts.map .ok ++ tail ∧ (tail = [] ∨ ∃ e rest, tail = .error e :: rest) ∧
          resp.readCapped =
            if maxCameraResponseBytes < parts.flatten.length then .error sizeError
            else if tail = [] then .ok parts.flatten
            else .error readError) ∧
    ∀ limit, (∀ chunk, .ok chunk ∈ resp.chunks → chunk.length ≤ limit) →
      ∀ n ∈ bufferSizes [] resp.chunks, n ≤ maxCameraResponseBytes + limit := by
  have hempty : ([] : List UInt8).length ≤ maxCameraResponseBytes := Nat.zero_le _
  refine ⟨fun len hlen hcap => ?_, fun hlength => ?_, fun limit hchunks => ?_⟩
  · rw [readCapped, hlen]
    exact if_pos hcap
  · obtain ⟨parts, tail, hparts, htail⟩ := exists_parts resp.chunks
    refine ⟨parts, tail, hparts, htail, ?_⟩
    rw [readCapped_of_length resp hlength, hparts, readChunks_append hempty parts htail,
      List.nil_append]
  · exact bufferSizes_le hempty hchunks

/-! ## Bodies within the cap -/

/-- The body is within the cap, and all of it is read. -/
structure Delivers (resp : RawResponse) (body : List UInt8) : Prop where
  declared : ∀ len ∈ resp.contentLength, len ≤ maxCameraResponseBytes
  parts : ∃ parts : List (List UInt8), resp.chunks = parts.map .ok ∧ parts.flatten = body
  size : body.length ≤ maxCameraResponseBytes

/-- **The bodies within the cap** are those that are returned. -/
theorem readCapped_iff {resp : RawResponse} {body : List UInt8} :
    resp.readCapped = .ok body ↔ resp.Delivers body := by
  have hempty : ([] : List UInt8).length ≤ maxCameraResponseBytes := Nat.zero_le _
  constructor
  · intro h
    have hdeclared : ∀ len ∈ resp.contentLength, len ≤ maxCameraResponseBytes := by
      intro len hlen
      refine Nat.not_lt.mp fun hcap => ?_
      rw [readCapped, hlen] at h
      cases (if_pos hcap).symm.trans h
    obtain ⟨parts, tail, hparts, htail⟩ := exists_parts resp.chunks
    rw [readCapped_of_length resp hdeclared, hparts, readChunks_append hempty parts htail,
      List.nil_append] at h
    split_ifs at h with hcap hend
    obtain rfl := Except.ok.inj h
    rw [hend, List.append_nil] at hparts
    exact ⟨hdeclared, ⟨parts, hparts, rfl⟩, Nat.not_lt.mp hcap⟩
  · rintro ⟨hdeclared, ⟨parts, hparts, rfl⟩, hsize⟩
    have happend := readChunks_append hempty parts (.inl rfl)
    rw [List.append_nil, List.nil_append, if_neg (Nat.not_lt.mpr hsize), if_pos rfl] at happend
    rw [readCapped_of_length resp hdeclared, hparts, happend]

/-- The answers that come to a response with a text. -/
theorem http_iff {resp : RawResponse} {http : HttpResponse} :
    resp.http = .ok http ↔ ∃ body, resp.Delivers body ∧
      http = ⟨resp.status, resp.statusText, fromUtf8Lossy body⟩ := by
  simp only [← readCapped_iff]
  rw [RawResponse.http]
  cases resp.readCapped with
  | error e =>
    constructor
    · intro h
      cases h
    · rintro ⟨body, hbody, -⟩
      cases hbody
  | ok body =>
    constructor
    · intro h
      exact ⟨body, rfl, (Except.ok.inj h).symm⟩
    · rintro ⟨body', hbody, rfl⟩
      rw [Except.ok.inj hbody]
      rfl

end RawResponse

end Cgi

end Fosipcore
