import Fosipcore.Library.Metered
import Fosipcore.Video.Responses

/-!
# What a response accumulates

A response is read into memory: the status line, the header lines, and a buffer for the body, which
is allocated when the header block says how long the body is. Neither of the two readers sets a bound
to any of them. They accumulate what the server sends up to the blank line, and the length that it
declares, whether or not a body comes.

## Main definitions

* `readResponseMetered`, `readAuthResponseMetered`: the two readers, with the bytes accumulated
* `headSize`, `declaredBody`: the bytes of the head of a stream, and the body that it declares

## Main results

* `result_readResponseMetered`: the meter does not change what is read
* `used_readResponseMetered`: what is accumulated is the head and the body that is declared
* `Response.used_head`: the body is allocated before it comes
* `accumulated_le_iff`: the servers for which the buffers are bounded
-/

namespace Fosipcore

open Text ByteStream

/-! ## The readers with a meter -/

/-- `read_line`: the bytes of the line are accumulated, also where they are not valid UTF-8. -/
def readLineMetered (r : BufReader) : Metered (Str × BufReader) :=
  ⟨readLine r, (r.readUntil 10 (r.bytes.length + 1)).1.length⟩

/-- `vec![0u8; n]`, which panics where `n` is more than `isize::MAX`. -/
def zeroed (n : ℕ) : Metered Unit := if n < 2 ^ 63 then ⟨some (), n⟩ else ⟨none, 0⟩

/-- `readHeaders`, with the bytes accumulated. -/
def readHeadersMetered : ℕ → Str → BufReader → Metered (Str × BufReader)
  | 0, _, _ => .ofOption none
  | fuel + 1, headers, r => do
    let (line, r) ← readLineMetered r
    if trim line = [] then pure (headers, r) else readHeadersMetered fuel (headers ++ line) r

/-- `readResponse`, with the bytes accumulated. -/
def readResponseMetered (r : BufReader) : Metered (RtspResponse × BufReader) := do
  let (statusLine, r) ← readLineMetered r
  let statusCode ← .ofOption (parseStatusCode statusLine)
  let (headers, r) ← readHeadersMetered (r.bytes.length + 1) [] r
  zeroed (contentLength headers)
  let (body, r) ← .ofOption
    (if 0 < contentLength headers then r.readExact (contentLength headers) else some ([], r))
  pure (⟨statusCode, headers, body⟩, r)

/-- `readAuthHeaders`, with the bytes accumulated. -/
def readAuthHeadersMetered : ℕ → Str → BufReader → Metered (Str × BufReader)
  | 0, _, _ => .ofOption none
  | fuel + 1, headers, r => do
    let (line, r) ← readLineMetered r
    if trim line = [] then pure (headers, r) else readAuthHeadersMetered fuel (headers ++ line) r

/-- `readAuthResponse`, with the bytes accumulated. -/
def readAuthResponseMetered (r : BufReader) : Metered (RtspText × BufReader) := do
  let (statusLine, r) ← readLineMetered r
  let statusCode ← .ofOption (parseStatusCode statusLine)
  let (headers, r) ← readAuthHeadersMetered (r.bytes.length + 1) [] r
  let contentLength :=
    ((extractHeader headers "Content-Length".toList).bind (parseUnsigned (2 ^ 64 - 1))).getD 0
  zeroed contentLength
  let (body, r) ← .ofOption (if 0 < contentLength then r.readExact contentLength else some ([], r))
  pure (⟨statusCode, headers, fromUtf8Lossy body⟩, r)

theorem result_zeroed (n : ℕ) : (zeroed n).result = if n < 2 ^ 63 then some () else none := by
  unfold zeroed
  split_ifs <;> rfl

theorem result_readHeadersMetered (fuel : ℕ) (headers : Str) (r : BufReader) :
    (readHeadersMetered fuel headers r).result = readHeaders fuel headers r := by
  induction fuel generalizing headers r with
  | zero => rfl
  | succ fuel ih =>
    rw [readHeadersMetered, readHeaders, Metered.result_bind]
    refine Option.bind_congr fun line _ => ?_
    dsimp only
    split_ifs
    · rfl
    · exact ih _ _

theorem readAuthHeadersMetered_eq (fuel : ℕ) (headers : Str) (r : BufReader) :
    readAuthHeadersMetered fuel headers r = readHeadersMetered fuel headers r := by
  induction fuel generalizing headers r with
  | zero => rfl
  | succ fuel ih => simp only [readAuthHeadersMetered, readHeadersMetered, ih]

theorem filter_bind {α β : Type} (a? : Option α) (f : α → Option β) (p : β → Bool) :
    (a?.bind f).filter p = a?.bind fun a => (f a).filter p := by
  cases a? with
  | none => rfl
  | some a => rfl

/-- **The meter does not change what is read**, but for the panic of the allocation. -/
theorem result_readResponseMetered (r : BufReader) :
    (readResponseMetered r).result =
      (readResponse r).filter fun read => contentLength read.1.headers < 2 ^ 63 := by
  simp only [readResponseMetered, readResponse, Metered.result_bind, Metered.result_ofOption,
    Metered.result_pure, result_readHeadersMetered, result_zeroed, Option.bind_eq_bind, filter_bind]
  refine Option.bind_congr fun _ _ => Option.bind_congr fun _ _ => Option.bind_congr fun read _ => ?_
  rw [← apply_ite (Option.bind · _), filter_bind]
  by_cases hlength : contentLength read.1 < 2 ^ 63
  · rw [if_pos hlength, Option.bind_some]
    exact Option.bind_congr fun _ _ => (if_pos (decide_eq_true hlength)).symm
  · -- the allocation panics
    rw [if_neg hlength, Option.bind_none]
    refine (Option.bind_fun_none _).symm.trans (Option.bind_congr fun _ _ => ?_)
    exact (if_neg (Bool.eq_false_iff.mp (decide_eq_false hlength))).symm

/-- **The two readers accumulate the same**, and read the same. -/
theorem readAuthResponseMetered_eq (r : BufReader) :
    readAuthResponseMetered r = (readResponseMetered r).map fun read =>
      (⟨read.1.statusCode, read.1.headers, fromUtf8Lossy read.1.body⟩, read.2) := by
  simp only [readAuthResponseMetered, readResponseMetered, readAuthHeadersMetered_eq,
    Metered.map_bind]
  rfl

/-! ## The head of a stream -/

/-- The lines of a stream, with their line feeds; the last one may have none. -/
def wireLines : List UInt8 → List (List UInt8)
  | [] => []
  | b :: bytes =>
    if b = 10 then [b] :: wireLines bytes
    else
      match wireLines bytes with
      | [] => [[b]]
      | line :: lines => (b :: line) :: lines

/-- The bytes of the header lines: up to a blank line, a line that is not valid UTF-8, or the end of
the stream. -/
def headerSize : List (List UInt8) → ℕ
  | [] => 0
  | line :: lines =>
    line.length +
      match decodeUtf8 line with
      | none => 0
      | some text => if trim text = [] then 0 else headerSize lines

/-- The header lines as text, if they are valid UTF-8. -/
def headerText : List (List UInt8) → Option Str
  | [] => some []
  | line :: lines => do
    let text ← decodeUtf8 line
    if trim text = [] then some [] else (headerText lines).map (text ++ ·)

/-- Whether a line is a status line with a code. -/
def hasStatusCode (line : List UInt8) : Bool := ((decodeUtf8 line).bind parseStatusCode).isSome

/-- The bytes of the head of a stream: the first line and, where that is a status line, the header
lines. -/
def headSize (bytes : List UInt8) : ℕ :=
  match wireLines bytes with
  | [] => 0
  | status :: lines => status.length + if hasStatusCode status then headerSize lines else 0

/-- The length that the head of a stream declares, if an allocation can be that large. -/
def declaredBody (bytes : List UInt8) : ℕ :=
  match wireLines bytes with
  | [] => 0
  | status :: lines =>
    if hasStatusCode status then
      (headerText lines).elim 0 fun headers => (zeroed (contentLength headers)).used
    else 0

/-- The first line of a stream. -/
theorem wireLines_eq {bytes : List UInt8} (h : bytes ≠ []) :
    wireLines bytes =
      BufReader.upTo 10 bytes :: wireLines (bytes.drop (BufReader.upTo 10 bytes).length) := by
  induction bytes with
  | nil => exact absurd rfl h
  | cons b bytes ih =>
    rw [wireLines, BufReader.upTo]
    split_ifs with hb
    · rw [hb]
      rfl
    · cases bytes with
      | nil => rfl
      | cons c bytes =>
        rw [ih (List.cons_ne_nil c bytes)]
        rfl

variable {r : BufReader}

/-- **Reading a line** of any stream. -/
theorem readLineMetered_spec (hcapacity : 0 < r.capacity) :
    ∃ r', readLineMetered r = ⟨(decodeUtf8 (BufReader.upTo 10 r.bytes)).map fun line => (line, r'),
        (BufReader.upTo 10 r.bytes).length⟩ ∧
      r'.bytes = r.bytes.drop (BufReader.upTo 10 r.bytes).length ∧ r'.capacity = r.capacity := by
  obtain ⟨r', hread, hrest, hcap⟩ := @BufReader.readUntil_upTo 10 r hcapacity
  refine ⟨r', ?_, hrest, hcap⟩
  rw [readLineMetered, readLine, hread]

/-- **Reading the header lines** of any stream accumulates them all. -/
theorem readHeadersMetered_spec {fuel : ℕ} (before : Str) (hcapacity : 0 < r.capacity)
    (hfuel : r.bytes.length < fuel) :
    (readHeadersMetered fuel before r).used = headerSize (wireLines r.bytes) ∧
      (readHeadersMetered fuel before r).result.map Prod.fst =
        (headerText (wireLines r.bytes)).map (before ++ ·) := by
  induction fuel generalizing before r with
  | zero => cases hfuel
  | succ fuel ih =>
    obtain ⟨r', hread, hrest, hcap⟩ := readLineMetered_spec hcapacity
    rw [readHeadersMetered, Metered.used_bind, Metered.result_bind, hread]
    by_cases hbytes : r.bytes = []
    · -- the end of the stream ends the loop as a blank line does
      rw [hbytes]
      exact ⟨rfl, (congrArg some (List.append_nil before)).symm⟩
    · have hshorter : r'.bytes.length < fuel := by
        have hline := @BufReader.length_upTo_pos 10 r.bytes hbytes
        have hpos := List.length_pos_iff.mpr hbytes
        rw [hrest, List.length_drop]
        omega
      rw [wireLines_eq hbytes, headerSize, headerText, ← hrest]
      dsimp only
      cases decodeUtf8 (BufReader.upTo 10 r.bytes) with
      | none => exact ⟨rfl, rfl⟩
      | some line =>
        obtain ⟨hused, hresult⟩ := ih (before ++ line) (r := r') (hcap.symm ▸ hcapacity) hshorter
        simp only [Option.map_some, Option.elim_some, Option.bind_some, Option.bind_eq_bind]
        split_ifs
        · exact ⟨rfl, (congrArg some (List.append_nil before)).symm⟩
        · rw [hused, hresult, Option.map_map]
          refine ⟨rfl, congrArg (Option.map · _) (funext fun rest => ?_)⟩
          exact List.append_assoc before line rest

/-- The body is accounted for when it is allocated. -/
theorem used_body {α : Type} (n : ℕ) (read : Option α) (f : α → RtspResponse × BufReader) :
    (zeroed n >>= fun _ => Metered.ofOption read >>= fun body => pure (f body)).used =
      (zeroed n).used :=
  Metered.used_bind_free fun _ => Metered.used_bind_free fun _ => Metered.used_pure _

/-- **What is accumulated** is the head of the stream, and the body that it declares. -/
theorem used_readResponseMetered (hcapacity : 0 < r.capacity) :
    (readResponseMetered r).used = headSize r.bytes + declaredBody r.bytes := by
  obtain ⟨r', hread, hrest, hcap⟩ := readLineMetered_spec hcapacity
  rw [readResponseMetered, Metered.used_bind, hread, headSize, declaredBody]
  by_cases hbytes : r.bytes = []
  · -- without a byte there is no status line
    rw [hbytes]
    rfl
  rw [wireLines_eq hbytes, ← hrest]
  dsimp only
  cases hdecode : decodeUtf8 (BufReader.upTo 10 r.bytes) with
  | none =>
    have hstatus : hasStatusCode (BufReader.upTo 10 r.bytes) = false := by
      rw [hasStatusCode, hdecode]
      rfl
    rw [hstatus]
    rfl
  | some statusLine =>
    have hstatus : hasStatusCode (BufReader.upTo 10 r.bytes) =
        (parseStatusCode statusLine).isSome := by
      rw [hasStatusCode, hdecode, Option.bind_some]
    rw [hstatus, Option.map_some, Option.elim_some, Metered.used_bind]
    cases parseStatusCode statusLine with
    | none => rfl
    | some statusCode =>
      obtain ⟨hused, hresult⟩ := readHeadersMetered_spec (r := r') [] (hcap.symm ▸ hcapacity)
        (Nat.lt_succ_self _)
      simp only [Metered.result_ofOption, Metered.used_ofOption, Option.elim_some]
      rw [Metered.used_bind, hused]
      -- the body is allocated for what the header lines declare
      have hbody : (readHeadersMetered (r'.bytes.length + 1) [] r').result.elim 0
            (fun read => (zeroed (contentLength read.1)).used) =
          (headerText (wireLines r'.bytes)).elim 0
            fun headers => (zeroed (contentLength headers)).used := by
        rw [← hresult.trans Option.map_id_apply, Option.elim_map]
        rfl
      simp only [used_body, hbody, Option.isSome_some, if_true]
      omega

/-! ## Well-formed heads -/

theorem IsLine.wireLines_append {bytes : List UInt8} {text : Str} (h : IsLine bytes text)
    (rest : List UInt8) : wireLines (bytes ++ rest) = bytes :: wireLines rest := by
  obtain ⟨line, rfl, hline⟩ := h.ends
  have hupTo : BufReader.upTo 10 (line ++ [10] ++ rest) = line ++ [10] := by
    rw [List.append_assoc]
    exact BufReader.upTo_append rest hline
  have hne : line ++ [10] ++ rest ≠ [] := by
    rw [List.append_assoc]
    exact List.append_ne_nil_of_right_ne_nil _ (List.cons_ne_nil _ _)
  rw [wireLines_eq hne, hupTo, List.drop_left]

/-- A header block ends with its blank line, whatever comes behind it. -/
theorem HeaderBlock.wireLines_append {block : List UInt8} {headers : Str}
    (h : HeaderBlock block headers) (rest : List UInt8) :
    headerSize (wireLines (block ++ rest)) = block.length ∧
      headerText (wireLines (block ++ rest)) = some headers := by
  induction h with
  | blank bytes text hline hblank =>
    rw [hline.wireLines_append, headerSize, headerText, hline.decoded]
    simp only [hblank, if_true, Nat.add_zero, Option.bind_eq_bind, Option.bind_some, and_self]
  | header bytes block text headers hline hblank _ ih =>
    rw [List.append_assoc, hline.wireLines_append, headerSize, headerText, hline.decoded]
    simp only [hblank, if_false, ih, Option.bind_eq_bind, Option.bind_some, Option.map_some,
      List.length_append, and_self]

/-- **The body is allocated behind its head**, whatever the bytes that come. -/
theorem Response.used_head (response : Response) {rest : List UInt8} (hcapacity : 0 < r.capacity)
    (hbytes : r.bytes = response.statusLine ++ response.headerBlock ++ rest)
    (hlength : response.body.length < 2 ^ 63) :
    (readResponseMetered r).used = response.bytes.length := by
  obtain ⟨hsize, htext⟩ := response.isHeaderBlock.wireLines_append rest
  have hstatus : hasStatusCode response.statusLine = true := by
    rw [hasStatusCode, response.status_line.decoded, Option.bind_some, response.parse_status]
    rfl
  rw [used_readResponseMetered hcapacity, hbytes, headSize, declaredBody, List.append_assoc,
    response.status_line.wireLines_append]
  simp only [hstatus, if_true, hsize, htext, Option.elim_some, ← response.length_body_eq]
  rw [zeroed, if_pos hlength, Response.bytes, List.length_append, List.length_append]

/-! ## Bounds -/

/-- **The servers for which the buffers are bounded** are those that bound them: the head that a
server sends and the body that it declares are all that counts, in both readers. -/
theorem accumulated_le_iff (servers : Set (List UInt8)) (B : ℕ) :
    (∀ r : BufReader, 0 < r.capacity → r.bytes ∈ servers →
      (readResponseMetered r).used ≤ B ∧ (readAuthResponseMetered r).used ≤ B) ↔
        ∀ bytes ∈ servers, headSize bytes + declaredBody bytes ≤ B := by
  have hused : ∀ r : BufReader, 0 < r.capacity →
      ((readResponseMetered r).used ≤ B ∧ (readAuthResponseMetered r).used ≤ B ↔
        headSize r.bytes + declaredBody r.bytes ≤ B) := by
    intro r hcapacity
    have hauth : (readAuthResponseMetered r).used = (readResponseMetered r).used := by
      rw [readAuthResponseMetered_eq]
      rfl
    rw [hauth, and_self, used_readResponseMetered hcapacity]
  constructor
  · intro h bytes hbytes
    have hcapacity : 0 < (⟨8192, [], ⟨bytes, []⟩⟩ : BufReader).capacity := Nat.succ_pos _
    exact (hused _ hcapacity).mp (h _ hcapacity hbytes)
  · intro h r hcapacity hbytes
    exact (hused r hcapacity).mpr (h _ hbytes)

/-- A line that does not end is accumulated as a whole. -/
theorem length_le_headSize {bytes : List UInt8} (h : 10 ∉ bytes) :
    bytes.length ≤ headSize bytes := by
  by_cases hbytes : bytes = []
  · rw [hbytes]
    exact Nat.zero_le _
  · rw [headSize, wireLines_eq hbytes, BufReader.upTo_of_not_mem h]
    exact Nat.le_add_right _ _

/-- **No bound holds for all servers.** -/
theorem accumulated_unbounded :
    ¬ ∃ B, ∀ r : BufReader, 0 < r.capacity →
      (readResponseMetered r).used ≤ B ∧ (readAuthResponseMetered r).used ≤ B := by
  rintro ⟨B, h⟩
  have hline : 10 ∉ List.replicate (B + 1) (97 : UInt8) := by
    intro hmem
    cases List.eq_of_mem_replicate hmem
  have hcapacity : 0 < (⟨8192, [], ⟨List.replicate (B + 1) 97, []⟩⟩ : BufReader).capacity :=
    Nat.succ_pos _
  have hle := (h _ hcapacity).1
  rw [used_readResponseMetered hcapacity] at hle
  have hsize := length_le_headSize hline
  rw [List.length_replicate] at hsize
  exact absurd (hsize.trans ((Nat.le_add_right _ _).trans hle)) (Nat.not_succ_le_self B)

end Fosipcore
