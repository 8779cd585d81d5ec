import Mathlib.Data.List.TakeWhile
import Mathlib.Tactic.SplitIfs

/-!
# Buffered reading of a byte stream

A socket hands out its bytes in the chunks that the network makes of them. A buffered reader fills
its buffer with one read of the socket whenever the buffer is empty, so it may hold bytes that come
after those it was asked for. What a buffered reader leaves in its state is the same as if it had
consumed one byte at a time, which makes reads compose.

## Main definitions

* `Socket`, `Socket.read`: a byte stream with its cuts, and one read of it
* `readExact`: the loop that reads a number of bytes
* `BufReader`, `BufReader.readUntil`, `BufReader.read`: the buffered reader
* `BufReader.consume`: the consumption of a number of bytes, one at a time
* `BufReader.upTo`: the line at the beginning of a stream

## Main results

* `Socket.readExact_eq`: direct reads do not see the cuts
* `BufReader.readUntil_eq`, `BufReader.readExact_eq`: buffered reads as consumptions
* `BufReader.readUntil_upTo`: what is read up to a delimiter, whether or not it comes
* `BufReader.buf_consume_iff`: when the buffer is empty after a consumption
-/

namespace ByteStream

/-! ## Sockets -/

/-- What is still to come on a connection: the bytes, and where the network cuts them. The next
chunk has one byte more than the first cut says, and what is left without a cut is one chunk. -/
structure Socket where
  bytes : List UInt8
  cuts : List ℕ
  deriving DecidableEq

/-- One read into a destination with room for some bytes: as many of the current chunk. -/
def Socket.read (room : ℕ) (s : Socket) : List UInt8 × Socket :=
  match s.cuts with
  | [] => (s.bytes.take room, ⟨s.bytes.drop room, []⟩)
  | k :: cuts =>
    if k < room then (s.bytes.take (k + 1), ⟨s.bytes.drop (k + 1), cuts⟩)
    else (s.bytes.take room, ⟨s.bytes.drop room, (k - room) :: cuts⟩)

/-- Read until a number of bytes has come. A read without bytes is the end of the stream. -/
def readExact {σ : Type*} (read : ℕ → σ → List UInt8 × σ) :
    ℕ → ℕ → σ → Option (List UInt8 × σ)
  | _, 0, s => some ([], s)
  | 0, _ + 1, _ => none
  | fuel + 1, n + 1, s =>
    match read (n + 1) s with
    -- the end of the stream: `UnexpectedEof`
    | ([], _) => none
    | (bytes, s) =>
      (readExact read fuel (n + 1 - bytes.length) s).map fun (rest, s) => (bytes ++ rest, s)

/-- `read_exact`: every read of the loop brings a byte at least. -/
def Socket.readExact (n : ℕ) (s : Socket) : Option (List UInt8 × Socket) :=
  ByteStream.readExact Socket.read n n s

/-- A read returns a beginning of the bytes: at most what there is room for, and something if
there is room. -/
theorem Socket.read_cases (room : ℕ) (s : Socket) :
    ∃ n cuts, s.read room = (s.bytes.take n, ⟨s.bytes.drop n, cuts⟩) ∧ n ≤ room ∧
      (0 < room → 0 < n) := by
  unfold Socket.read
  cases s.cuts with
  | nil => exact ⟨room, [], rfl, le_rfl, id⟩
  | cons k cuts =>
    by_cases hk : k < room
    · -- the rest of the chunk
      exact ⟨k + 1, cuts, by simp only [if_pos hk], hk, fun _ => Nat.succ_pos k⟩
    · -- a part of the chunk, which keeps its end
      exact ⟨room, (k - room) :: cuts, by simp only [if_neg hk], le_rfl, id⟩

theorem readExact_socket {fuel n : ℕ} {s : Socket} (hfuel : n ≤ fuel) (hn : n ≤ s.bytes.length) :
    ∃ cuts, readExact Socket.read fuel n s = some (s.bytes.take n, ⟨s.bytes.drop n, cuts⟩) := by
  induction fuel generalizing n s with
  | zero =>
    obtain rfl := Nat.le_zero.mp hfuel
    exact ⟨s.cuts, rfl⟩
  | succ fuel ih =>
    cases n with
    | zero => exact ⟨s.cuts, rfl⟩
    | succ n =>
      obtain ⟨k, cuts, hread, hk, hpos⟩ := s.read_cases (n + 1)
      have hk0 : 0 < k := hpos (Nat.succ_pos n)
      have hlen : (s.bytes.take k).length = k := List.length_take_of_le (hk.trans hn)
      obtain ⟨cuts', hrest⟩ := ih (n := n + 1 - k) (s := ⟨s.bytes.drop k, cuts⟩) (by omega)
        (by rw [List.length_drop]; omega)
      refine ⟨cuts', ?_⟩
      cases hbytes : s.bytes.take k with
      | nil =>
        -- the read is not the end of the stream: there are bytes, and room for them
        rw [hbytes, List.length_nil] at hlen
        omega
      | cons b bytes =>
        rw [hbytes] at hread hlen
        simp only [readExact, hread, hlen, hrest, Option.map_some]
        rw [← hbytes, ← List.take_add, List.drop_drop, Nat.add_sub_cancel' hk]

/-- **Direct reads do not see the cuts.** -/
theorem Socket.readExact_eq {n : ℕ} {s : Socket} (hn : n ≤ s.bytes.length) :
    ∃ cuts, s.readExact n = some (s.bytes.take n, ⟨s.bytes.drop n, cuts⟩) :=
  readExact_socket le_rfl hn

theorem readExact_none {fuel n : ℕ} {s : Socket} (hn : s.bytes.length < n) :
    readExact Socket.read fuel n s = none := by
  induction fuel generalizing n s with
  | zero =>
    cases n with
    | zero => cases hn
    | succ n => rfl
  | succ fuel ih =>
    cases n with
    | zero => cases hn
    | succ n =>
      obtain ⟨k, cuts, hread, -, -⟩ := s.read_cases (n + 1)
      cases hbytes : s.bytes.take k with
      | nil =>
        rw [hbytes] at hread
        simp only [readExact, hread]
      | cons b bytes =>
        have hlen := congrArg List.length hbytes
        rw [List.length_take] at hlen
        rw [hbytes] at hread
        have hrest := ih (n := n + 1 - (b :: bytes).length) (s := ⟨s.bytes.drop k, cuts⟩)
          (by rw [List.length_drop]; omega)
        simp only [readExact, hread, hrest, Option.map_none]

/-- At the end of the stream a read of more bytes fails. -/
theorem Socket.readExact_eq_none {n : ℕ} {s : Socket} (hn : s.bytes.length < n) :
    s.readExact n = none := readExact_none hn

/-! ## Buffered readers -/

/-- A reader with a buffer in front of a socket. -/
structure BufReader where
  capacity : ℕ
  buf : List UInt8
  inner : Socket
  deriving DecidableEq

namespace BufReader

/-- All bytes that the reader will return. -/
def bytes (r : BufReader) : List UInt8 := r.buf ++ r.inner.bytes

/-- Fill an empty buffer with one read of the socket. -/
def refill (room : ℕ) (r : BufReader) : BufReader :=
  if r.buf = [] then ⟨r.capacity, (r.inner.read room).1, (r.inner.read room).2⟩ else r

/-- `fill_buf`: there is room for as many bytes as the buffer holds. -/
def fillBuf (r : BufReader) : BufReader := r.refill r.capacity

/-- `consume`: take bytes from the buffer. -/
def skip (n : ℕ) (r : BufReader) : BufReader := { r with buf := r.buf.drop n }

/-- `read_until`: the bytes up to and including a delimiter, or all bytes without one. Only those
are taken from the buffer. -/
def readUntil (delim : UInt8) : ℕ → BufReader → List UInt8 × BufReader
  | 0, r => ([], r)
  | fuel + 1, r =>
    let r := r.fillBuf
    -- the end of the stream
    if r.buf = [] then ([], r)
    else
      let before := r.buf.takeWhile (· ≠ delim)
      if delim ∈ r.buf then (before ++ [delim], r.skip (before.length + 1))
      else
        let (bytes, r') := readUntil delim fuel (r.skip r.buf.length)
        (r.buf ++ bytes, r')

/-- One read through the buffer. An empty buffer is bypassed when the destination has room for as
many bytes as the buffer. -/
def read (room : ℕ) (r : BufReader) : List UInt8 × BufReader :=
  if r.buf = [] ∧ r.capacity ≤ room then
    ((r.inner.read room).1, { r with inner := (r.inner.read room).2 })
  else (r.fillBuf.buf.take room, r.fillBuf.skip room)

/-- `read_exact` through the buffer. -/
def readExact (n : ℕ) (r : BufReader) : Option (List UInt8 × BufReader) :=
  ByteStream.readExact read n n r

/-! ## Consumption -/

/-- Consume a number of bytes, one at a time: an empty buffer is filled by a read with the room
that `room` gives for the number of bytes that are left to consume. -/
def consume (room : ℕ → ℕ) : ℕ → BufReader → BufReader
  | 0, r => r
  | n + 1, r => consume room n ((r.refill (room (n + 1))).skip 1)

theorem refill_of_ne {r : BufReader} (h : r.buf ≠ []) (room : ℕ) : r.refill room = r := if_neg h

theorem capacity_refill (r : BufReader) (room : ℕ) : (r.refill room).capacity = r.capacity := by
  unfold refill
  split_ifs <;> rfl

theorem bytes_refill (r : BufReader) (room : ℕ) : (r.refill room).bytes = r.bytes := by
  unfold refill
  split_ifs with hbuf
  · obtain ⟨n, cuts, hread, -, -⟩ := r.inner.read_cases room
    rw [bytes, bytes, hread, hbuf]
    exact List.take_append_drop n _
  · rfl

/-- A filled buffer is empty only at the end of the stream. -/
theorem buf_refill_ne {r : BufReader} {room : ℕ} (hroom : 0 < room) (hbytes : r.bytes ≠ []) :
    (r.refill room).buf ≠ [] := by
  unfold refill
  split_ifs with hbuf
  · obtain ⟨n, cuts, hread, -, hn⟩ := r.inner.read_cases room
    rw [hread]
    rw [bytes, hbuf, List.nil_append] at hbytes
    rw [ne_eq, List.take_eq_nil_iff, not_or]
    exact ⟨(hn hroom).ne', hbytes⟩
  · exact hbuf

theorem skip_skip (r : BufReader) (n m : ℕ) : (r.skip n).skip m = r.skip (n + m) := by
  simp only [skip, List.drop_drop]

theorem bytes_skip {r : BufReader} {n : ℕ} (hn : n ≤ r.buf.length) :
    (r.skip n).bytes = r.bytes.drop n := (List.drop_append_of_le_length hn).symm

/-- What is in the buffer is consumed without another read. -/
theorem consume_of_le_length (room : ℕ → ℕ) {n : ℕ} {r : BufReader} (hn : n ≤ r.buf.length) :
    consume room n r = r.skip n := by
  induction n generalizing r with
  | zero => rfl
  | succ n ih =>
    have hne : r.buf ≠ [] := List.ne_nil_of_length_pos (by omega)
    have hskip : n ≤ (r.skip 1).buf.length := by
      rw [skip, List.length_drop]
      omega
    rw [consume, refill_of_ne hne, ih hskip, skip_skip, Nat.add_comm]

/-- What the first fill brings is consumed without another read. -/
theorem consume_of_le_refill {room : ℕ → ℕ} {n : ℕ} {r : BufReader} (hn0 : 0 < n)
    (hn : n ≤ (r.refill (room n)).buf.length) : consume room n r = (r.refill (room n)).skip n := by
  obtain ⟨n, rfl⟩ : ∃ m, n = m + 1 := ⟨n - 1, by omega⟩
  have hskip : n ≤ ((r.refill (room (n + 1))).skip 1).buf.length := by
    rw [skip, List.length_drop]
    omega
  rw [consume, consume_of_le_length room hskip, skip_skip, Nat.add_comm]

theorem consume_congr {room room' : ℕ → ℕ} {n : ℕ} (r : BufReader)
    (h : ∀ t, 0 < t → t ≤ n → room t = room' t) : consume room n r = consume room' n r := by
  induction n generalizing r with
  | zero => rfl
  | succ n ih =>
    rw [consume, consume, h (n + 1) (Nat.succ_pos n) le_rfl]
    apply ih
    intro t ht htn
    exact h t ht (htn.trans n.le_succ)

/-- **Consumptions compose.** -/
theorem consume_add (room : ℕ → ℕ) (n m : ℕ) (r : BufReader) :
    consume room (n + m) r = consume room m (consume (fun t => room (t + m)) n r) := by
  induction n generalizing r with
  | zero => rw [Nat.zero_add, consume]
  | succ n ih =>
    have hroom : n + 1 + m = n + m + 1 := by omega
    rw [hroom, consume, ih, consume, hroom]

/-- **The first bytes of a consumption**, where one fill brings them, are consumed at once. -/
theorem consume_eq_skip {room : ℕ → ℕ} {n k : ℕ} {r : BufReader} (hk0 : 0 < k) (hk : k ≤ n)
    (hbuf : k ≤ (r.refill (room n)).buf.length) :
    consume room n r = consume room (n - k) ((r.refill (room n)).skip k) := by
  have hsplit : k + (n - k) = n := Nat.add_sub_cancel' hk
  calc consume room n r
      = consume room (k + (n - k)) r := by rw [hsplit]
    _ = consume room (n - k) (consume (fun t => room (t + (n - k))) k r) := consume_add _ _ _ _
    _ = consume room (n - k) ((r.refill (room n)).skip k) := by
      rw [consume_of_le_refill hk0 (by rwa [hsplit]), hsplit]

/-- The bytes that are left after a consumption. -/
theorem bytes_consume {room : ℕ → ℕ} (hroom : ∀ t, 0 < t → 0 < room t) (n : ℕ) (r : BufReader) :
    (consume room n r).bytes = r.bytes.drop n := by
  induction n generalizing r with
  | zero => rfl
  | succ n ih =>
    have hone : ((r.refill (room (n + 1))).skip 1).bytes = r.bytes.drop 1 := by
      by_cases hbytes : r.bytes = []
      · -- at the end of the stream there is nothing to consume
        have hnil := (bytes_refill r (room (n + 1))).trans hbytes
        rw [bytes, List.append_eq_nil_iff] at hnil
        rw [bytes, skip, hnil.1, hnil.2, hbytes]
        rfl
      · have hne := buf_refill_ne (hroom _ (Nat.succ_pos n)) hbytes
        rw [bytes_skip (List.length_pos_iff.mpr hne), bytes_refill]
    rw [consume, ih, hone, List.drop_drop, Nat.add_comm]

theorem capacity_consume (room : ℕ → ℕ) (n : ℕ) (r : BufReader) :
    (consume room n r).capacity = r.capacity := by
  induction n generalizing r with
  | zero => rfl
  | succ n ih =>
    rw [consume, ih]
    exact capacity_refill _ _

/-! ## Reads as consumptions -/

/-- The first bytes of a delimited line hold the line, or are held by it. -/
theorem prefix_line_cases {delim : UInt8} {front back line rest : List UInt8}
    (h : front ++ back = line ++ delim :: rest) (hline : delim ∉ line) :
    (delim ∈ front ∧ ∃ tail, front = line ++ delim :: tail) ∨
    (delim ∉ front ∧ ∃ line', line = front ++ line') := by
  rcases List.append_eq_append_iff.mp h with ⟨line', rfl, -⟩ | ⟨tail, rfl, htail⟩
  · exact .inr ⟨fun hmem => hline (List.mem_append_left _ hmem), line', rfl⟩
  · cases tail with
    | nil =>
      rw [List.append_nil]
      exact .inr ⟨hline, [], (List.append_nil line).symm⟩
    | cons b tail =>
      obtain ⟨rfl, -⟩ := List.cons.inj htail
      exact .inl ⟨List.mem_append_cons_self, tail, rfl⟩

/-- **Reading up to a delimiter** consumes the bytes up to it, and no others. -/
theorem readUntil_eq {delim : UInt8} {line rest : List UInt8} {fuel : ℕ} {r : BufReader}
    (hcapacity : 0 < r.capacity) (hfuel : line.length < fuel)
    (hbytes : r.bytes = line ++ delim :: rest) (hline : delim ∉ line) :
    r.readUntil delim fuel =
      (line ++ [delim], r.consume (fun _ => r.capacity) (line.length + 1)) := by
  induction fuel generalizing line r with
  | zero => cases hfuel
  | succ fuel ih =>
    have hfilled : r.fillBuf.bytes = line ++ delim :: rest := (bytes_refill r _).trans hbytes
    have hne : r.fillBuf.buf ≠ [] := by
      apply buf_refill_ne hcapacity
      rw [hbytes]
      exact List.append_ne_nil_of_right_ne_nil _ (List.cons_ne_nil _ _)
    rw [readUntil]
    dsimp only
    rw [if_neg hne]
    rcases prefix_line_cases hfilled hline with ⟨hmem, tail, hbuf⟩ | ⟨hmem, line', hline'⟩
    · -- the line ends in the buffer
      have hbefore : r.fillBuf.buf.takeWhile (· ≠ delim) = line := by
        rw [hbuf, List.takeWhile_append_of_pos]
        · rw [List.takeWhile_cons_of_neg (by simp), List.append_nil]
        · intro b hb
          apply decide_eq_true
          rintro rfl
          exact hline hb
      have hlen : line.length + 1 ≤ r.fillBuf.buf.length := by
        rw [hbuf, List.length_append, List.length_cons]
        omega
      rw [if_pos hmem, hbefore, consume_of_le_refill (Nat.succ_pos _) hlen]
      rfl
    · -- the buffer is a beginning of the line, and the loop reads the rest of it
      have hlen : r.fillBuf.buf.length + line'.length = line.length := by
        rw [hline', List.length_append]
      have hpos := List.length_pos_iff.mpr hne
      have hcap : (r.fillBuf.skip r.fillBuf.buf.length).capacity = r.capacity :=
        capacity_refill _ _
      have hrest : (r.fillBuf.skip r.fillBuf.buf.length).bytes = line' ++ delim :: rest := by
        rw [bytes_skip le_rfl, hfilled, hline', List.append_assoc, List.drop_left]
      have hmem' : delim ∉ line' := by
        rw [hline'] at hline
        exact fun hmem' => hline (List.mem_append_right _ hmem')
      have hnext := ih (by rwa [hcap]) (by omega) hrest hmem'
      have hconsume : r.consume (fun _ => r.capacity) (line.length + 1) =
          (r.fillBuf.skip r.fillBuf.buf.length).consume (fun _ => r.capacity)
            (line'.length + 1) := by
        have hleft : line.length + 1 - r.fillBuf.buf.length = line'.length + 1 := by omega
        rw [consume_eq_skip hpos (by omega) le_rfl]
        exact congrArg (consume _ · _) hleft
      rw [if_neg hmem, hnext, hcap, hconsume]
      refine Prod.ext ?_ rfl
      rw [hline', List.append_assoc]

/-- Reading up to a delimiter that does not come reads all bytes. -/
theorem readUntil_end {delim : UInt8} {fuel : ℕ} {r : BufReader} (hcapacity : 0 < r.capacity)
    (hfuel : r.bytes.length < fuel) (hbytes : delim ∉ r.bytes) :
    ∃ r', r.readUntil delim fuel = (r.bytes, r') ∧ r'.bytes = [] ∧ r'.capacity = r.capacity := by
  induction fuel generalizing r with
  | zero => cases hfuel
  | succ fuel ih =>
    have hfilled : r.fillBuf.bytes = r.bytes := bytes_refill r _
    have hcap : r.fillBuf.capacity = r.capacity := capacity_refill r _
    rw [readUntil]
    dsimp only
    split_ifs with hbuf hmem
    · -- the end of the stream
      have hnil : r.bytes = [] := by
        by_contra hne
        exact buf_refill_ne hcapacity hne hbuf
      exact ⟨r.fillBuf, by rw [hnil], hfilled.trans hnil, hcap⟩
    · exact absurd (hfilled ▸ List.mem_append_left _ hmem) hbytes
    · -- the whole buffer, and what the rest of the loop reads
      have hrest : (r.fillBuf.skip r.fillBuf.buf.length).bytes = r.fillBuf.inner.bytes := by
        rw [bytes_skip le_rfl, bytes, List.drop_left]
      have hsplit : r.fillBuf.buf ++ r.fillBuf.inner.bytes = r.bytes := hfilled
      have hpos := List.length_pos_iff.mpr hbuf
      have hlen := congrArg List.length hsplit
      rw [List.length_append] at hlen
      obtain ⟨r', hread, hnil, hcap'⟩ := ih (r := r.fillBuf.skip r.fillBuf.buf.length)
        (hcap.symm ▸ hcapacity) (by rw [hrest]; omega)
        (by rw [hrest]; exact fun h => hbytes (hsplit ▸ List.mem_append_right _ h))
      refine ⟨r', ?_, hnil, hcap'.trans hcap⟩
      rw [hread, hrest, hsplit]

/-- The bytes up to and including a delimiter, or all bytes without one. -/
def upTo (delim : UInt8) : List UInt8 → List UInt8
  | [] => []
  | b :: bytes => if b = delim then [b] else b :: upTo delim bytes

/-- The line at the beginning of a stream. -/
theorem upTo_append {delim : UInt8} {line : List UInt8} (rest : List UInt8) (h : delim ∉ line) :
    upTo delim (line ++ delim :: rest) = line ++ [delim] := by
  induction line with
  | nil => exact if_pos rfl
  | cons b line ih =>
    rw [List.mem_cons, not_or] at h
    rw [List.cons_append, upTo, if_neg (Ne.symm h.1), ih h.2, List.cons_append]

theorem upTo_of_not_mem {delim : UInt8} {bytes : List UInt8} (h : delim ∉ bytes) :
    upTo delim bytes = bytes := by
  induction bytes with
  | nil => rfl
  | cons b bytes ih =>
    rw [List.mem_cons, not_or] at h
    rw [upTo, if_neg (Ne.symm h.1), ih h.2]

theorem length_upTo_pos {delim : UInt8} {bytes : List UInt8} (h : bytes ≠ []) :
    0 < (upTo delim bytes).length := by
  cases bytes with
  | nil => exact absurd rfl h
  | cons b bytes =>
    rw [upTo]
    split_ifs <;> exact Nat.succ_pos _

/-- **Reading up to a delimiter** takes the bytes up to it, or all bytes of a stream without one. -/
theorem readUntil_upTo {delim : UInt8} {r : BufReader} (hcapacity : 0 < r.capacity) :
    ∃ r', r.readUntil delim (r.bytes.length + 1) = (upTo delim r.bytes, r') ∧
      r'.bytes = r.bytes.drop (upTo delim r.bytes).length ∧ r'.capacity = r.capacity := by
  by_cases hmem : delim ∈ r.bytes
  · obtain ⟨line, rest, hbytes, hline⟩ := List.eq_append_cons_of_mem hmem
    have hfuel : line.length < r.bytes.length + 1 := by
      rw [hbytes, List.length_append]
      omega
    have hroom : ∀ t, 0 < t → 0 < (fun _ : ℕ => r.capacity) t := fun _ _ => hcapacity
    have hupTo : upTo delim r.bytes = line ++ [delim] := by rw [hbytes, upTo_append rest hline]
    refine ⟨_, ?_, ?_, capacity_consume (fun _ => r.capacity) (line.length + 1) r⟩
    · rw [readUntil_eq hcapacity hfuel hbytes hline, hupTo]
    · rw [bytes_consume hroom, hupTo, List.length_append]
      rfl
  · obtain ⟨r', hread, hnil, hcap⟩ := readUntil_end hcapacity (Nat.lt_succ_self _) hmem
    have hupTo := upTo_of_not_mem hmem
    refine ⟨r', by rw [hread, hupTo], ?_, hcap⟩
    rw [hnil, hupTo, List.drop_length]

/-- The room of the reads of `read_exact` through the buffer: a read that bypasses the buffer has
room for all that is left, which is then consumed at once. -/
def exactRoom (capacity t : ℕ) : ℕ := max capacity t

/-- A read that bypasses the buffer is a fill of the buffer that the read then empties. -/
theorem read_eq (n : ℕ) (r : BufReader) :
    r.read n = ((r.refill (exactRoom r.capacity n)).buf.take n,
      (r.refill (exactRoom r.capacity n)).skip n) := by
  unfold read
  by_cases hbuf : r.buf = []
  · by_cases hcap : r.capacity ≤ n
    · -- past the buffer: what comes fits into the destination, and nothing is left of it
      obtain ⟨k, cuts, hread, hk, -⟩ := r.inner.read_cases n
      have hlen : (r.inner.bytes.take k).length ≤ n := (List.length_take_le _ _).trans hk
      have hroom : exactRoom r.capacity n = n := max_eq_right hcap
      rw [if_pos ⟨hbuf, hcap⟩, hroom, refill, if_pos hbuf, hread, skip]
      dsimp only
      rw [List.take_of_length_le hlen, List.drop_of_length_le hlen, hbuf]
    · have hroom : exactRoom r.capacity n = r.capacity := max_eq_left (Nat.le_of_not_le hcap)
      rw [if_neg fun h => hcap h.2, hroom]
      rfl
  · rw [if_neg fun h => hbuf h.1, fillBuf, refill_of_ne hbuf, refill_of_ne hbuf]

theorem readExact_read {fuel n : ℕ} {r : BufReader} (hcapacity : 0 < r.capacity) (hfuel : n ≤ fuel)
    (hn : n ≤ r.bytes.length) : ByteStream.readExact read fuel n r =
      some (r.bytes.take n, r.consume (exactRoom r.capacity) n) := by
  induction fuel generalizing n r with
  | zero =>
    obtain rfl := Nat.le_zero.mp hfuel
    rfl
  | succ fuel ih =>
    cases n with
    | zero => rfl
    | succ n =>
      have hread := read_eq (n + 1) r
      have hcap := capacity_refill r (exactRoom r.capacity (n + 1))
      have hbytes := bytes_refill r (exactRoom r.capacity (n + 1))
      have hne : (r.refill (exactRoom r.capacity (n + 1))).buf ≠ [] := by
        apply buf_refill_ne (hcapacity.trans_le (le_max_left _ _))
        exact List.ne_nil_of_length_pos (by omega)
      have hconsume : ∀ k, 0 < k → k ≤ n + 1 →
          k ≤ (r.refill (exactRoom r.capacity (n + 1))).buf.length →
          r.consume (exactRoom r.capacity) (n + 1) =
            ((r.refill (exactRoom r.capacity (n + 1))).skip k).consume (exactRoom r.capacity)
              (n + 1 - k) := fun k => consume_eq_skip
      generalize r.refill (exactRoom r.capacity (n + 1)) = r' at *
      -- the read brings `k` bytes, which were consumed, and the loop goes on behind them
      obtain ⟨k, hk⟩ : ∃ k, k = min (n + 1) r'.buf.length := ⟨_, rfl⟩
      have hpos := List.length_pos_iff.mpr hne
      have hlen : (r'.buf.take (n + 1)).length = k := by rw [List.length_take, hk]
      have hskip : r'.skip (n + 1) = r'.skip k := by
        rw [skip, skip, hk]
        congr 1
        rw [List.drop_eq_drop_iff]
        omega
      have hskipped : (r'.skip k).bytes = r.bytes.drop k := by
        rw [bytes_skip (by omega), hbytes]
      have hrest := ih (n := n + 1 - k) (r := r'.skip k) (by rwa [skip, hcap]) (by omega)
        (by rw [hskipped, List.length_drop]; omega)
      have htake : r.bytes.take (n + 1) =
          r'.buf.take (n + 1) ++ (r.bytes.drop k).take (n + 1 - k) := by
        have hbuf : r.bytes.take k = r'.buf.take (n + 1) := by
          rw [← hbytes, bytes, List.take_append_of_le_length (by omega), List.take_eq_take_iff]
          omega
        rw [← hbuf, ← List.take_add, Nat.add_sub_cancel' (by omega)]
      rw [hconsume k (by omega) (by omega) (by omega), htake]
      rw [hskip] at hread
      rw [hskipped, show (r'.skip k).capacity = r.capacity from hcap] at hrest
      cases hbuf : r'.buf.take (n + 1) with
      | nil =>
        rw [hbuf, List.length_nil] at hlen
        omega
      | cons b buf =>
        rw [hbuf] at hread hlen
        simp only [ByteStream.readExact, hread, hlen, hrest, Option.map_some]

/-- **Reading a number of bytes** through the buffer consumes them. -/
theorem readExact_eq {n : ℕ} {r : BufReader} (hcapacity : 0 < r.capacity)
    (hn : n ≤ r.bytes.length) :
    r.readExact n = some (r.bytes.take n, r.consume (exactRoom r.capacity) n) :=
  readExact_read hcapacity le_rfl hn

/-! ## When the buffer is empty -/

variable {room : ℕ → ℕ} {capacity : ℕ}

/-- A read that brings no more than what is left to consume is consumed at once. -/
theorem consume_read {n j : ℕ} {s : Socket} {cuts : List ℕ}
    (hread : s.read (room n) = (s.bytes.take j, ⟨s.bytes.drop j, cuts⟩)) (hj0 : 0 < j) (hj : j ≤ n)
    (hlen : j ≤ s.bytes.length) :
    consume room n ⟨capacity, [], s⟩ =
      consume room (n - j) ⟨capacity, [], ⟨s.bytes.drop j, cuts⟩⟩ := by
  have hrefill : refill (room n) ⟨capacity, [], s⟩ =
      ⟨capacity, s.bytes.take j, ⟨s.bytes.drop j, cuts⟩⟩ := by
    rw [refill, if_pos rfl, hread]
  rw [consume_eq_skip hj0 hj (by rw [hrefill, List.length_take_of_le hlen]), hrefill, skip]
  dsimp only
  rw [List.drop_of_length_le (List.length_take_le _ _)]

/-- A read that brings more than what is left to consume leaves bytes in the buffer. -/
theorem consume_overrun {n j : ℕ} {s : Socket} {cuts : List ℕ}
    (hread : s.read (room n) = (s.bytes.take j, ⟨s.bytes.drop j, cuts⟩)) (hn : 0 < n) (hj : n < j)
    (hlen : n < s.bytes.length) : (consume room n ⟨capacity, [], s⟩).buf ≠ [] := by
  have hrefill : refill (room n) ⟨capacity, [], s⟩ =
      ⟨capacity, s.bytes.take j, ⟨s.bytes.drop j, cuts⟩⟩ := by
    rw [refill, if_pos rfl, hread]
  have htake : n < (s.bytes.take j).length := by
    rw [List.length_take]
    omega
  rw [consume_of_le_refill hn (by rw [hrefill]; exact htake.le), hrefill, skip]
  apply List.ne_nil_of_length_pos
  rw [List.length_drop]
  exact Nat.sub_pos_of_lt htake

/-- A consumption that goes on behind the first chunk begins the next one with an empty buffer. -/
theorem consume_chunk (hroom : ∀ t, 0 < t → 0 < room t) {k n : ℕ} {bytes : List UInt8}
    {cuts : List ℕ} (hk : k < n) (hn : n ≤ bytes.length) :
    consume room n ⟨capacity, [], ⟨bytes, k :: cuts⟩⟩ =
      consume room (n - (k + 1)) ⟨capacity, [], ⟨bytes.drop (k + 1), cuts⟩⟩ := by
  induction k using Nat.strong_induction_on generalizing n bytes with
  | _ k ih =>
    have hroom0 := hroom n (by omega)
    by_cases hlast : k < room n
    · -- the read brings the rest of the chunk
      have hread : (Socket.mk bytes (k :: cuts)).read (room n) =
          (bytes.take (k + 1), ⟨bytes.drop (k + 1), cuts⟩) := by
        simp only [Socket.read, if_pos hlast]
      exact consume_read hread (Nat.succ_pos k) hk (hk.trans_le hn)
    · -- a part of the chunk: the induction goes on with what is left of it
      have hread : (Socket.mk bytes (k :: cuts)).read (room n) =
          (bytes.take (room n), ⟨bytes.drop (room n), (k - room n) :: cuts⟩) := by
        simp only [Socket.read, if_neg hlast]
      rw [consume_read hread hroom0 (by omega) (show _ ≤ bytes.length by omega)]
      dsimp only
      have hrest : n - room n - (k - room n + 1) = n - (k + 1) := by omega
      have hdrop : room n + (k - room n + 1) = k + 1 := by omega
      rw [ih (k - room n) (by omega) (by omega) (by rw [List.length_drop]; omega), List.drop_drop,
        hrest, hdrop]

/-- The smallest multiple of the capacity that is not below a number. -/
def roundUp (capacity n : ℕ) : ℕ := (n + (capacity - 1)) / capacity * capacity

theorem roundUp_zero (hcapacity : 0 < capacity) : roundUp capacity 0 = 0 := by
  rw [roundUp, Nat.zero_add, Nat.div_eq_of_lt (Nat.sub_one_lt_of_lt hcapacity), Nat.zero_mul]

theorem roundUp_step (hcapacity : 0 < capacity) {n : ℕ} (hn : 0 < n) :
    roundUp capacity n = roundUp capacity (n - capacity) + capacity := by
  by_cases hle : n ≤ capacity
  · have hdiv : (n + (capacity - 1)) / capacity = 1 := by
      rw [show n + (capacity - 1) = (n - 1) + capacity by omega, Nat.add_div_right _ hcapacity,
        Nat.div_eq_of_lt (by omega)]
    rw [Nat.sub_eq_zero_of_le hle, roundUp_zero hcapacity, roundUp, hdiv, Nat.one_mul,
      Nat.zero_add]
  · have hsplit : n + (capacity - 1) = (n - capacity + (capacity - 1)) + capacity := by omega
    rw [roundUp, roundUp, hsplit, Nat.add_div_right _ hcapacity, Nat.succ_mul]

/-- The room of the reads of a head, line by line, and a body, by `read_exact`. -/
def headBodyRoom (capacity body t : ℕ) : ℕ := if t ≤ body then exactRoom capacity t else capacity

/-- Consuming a head and then a body. -/
theorem consume_headBody (body head : ℕ) (r : BufReader) :
    consume (exactRoom capacity) body (consume (fun _ => capacity) head r) =
      consume (headBodyRoom capacity body) (head + body) r := by
  rw [consume_add]
  have hhead : consume (fun _ => capacity) head r =
      consume (fun t => headBodyRoom capacity body (t + body)) head r := by
    apply consume_congr
    intro t ht _
    rw [headBodyRoom, if_neg (by omega)]
  rw [hhead]
  apply consume_congr
  intro t _ ht
  rw [headBodyRoom, if_pos ht]

/-- The reads of a head and a body end with the body in the middle of a chunk, of which `n` bytes
belong to head and body: they cover the head by whole buffers, and the body ends there or is still
longer than a buffer. -/
def EndsInChunk (capacity body n : ℕ) : Prop :=
  n = roundUp capacity (n - body) ∨ roundUp capacity (n - body) + capacity ≤ n

instance (capacity body n : ℕ) : Decidable (EndsInChunk capacity body n) :=
  inferInstanceAs (Decidable (_ ∨ _))

/-- The reads of `n` bytes, the last of which are a body, end with the body: at the end of a chunk,
or in the middle of the last chunk that they reach. -/
def EndsRead (capacity body : ℕ) : List ℕ → ℕ → Prop
  | [], n => EndsInChunk capacity body n
  | k :: cuts, n =>
    if k < n then EndsRead capacity body cuts (n - (k + 1)) else EndsInChunk capacity body n

instance decidableEndsRead (capacity body : ℕ) :
    ∀ (cuts : List ℕ) (n : ℕ), Decidable (EndsRead capacity body cuts n)
  | [], n => inferInstanceAs (Decidable (EndsInChunk capacity body n))
  | k :: cuts, n =>
    have := decidableEndsRead capacity body cuts (n - (k + 1))
    inferInstanceAs (Decidable (if k < n then EndsRead capacity body cuts (n - (k + 1))
      else EndsInChunk capacity body n))

/-- A read in the middle of a chunk: it brings all there is room for, or more than `n` bytes. -/
theorem read_chunk (ρ : ℕ) {n : ℕ} {s : Socket} (hcuts : ∀ k ∈ s.cuts.head?, n ≤ k) :
    ∃ j cuts, s.read ρ = (s.bytes.take j, ⟨s.bytes.drop j, cuts⟩) ∧
      (n < j ∧ n < ρ ∨ j = ρ ∧ ∀ k ∈ cuts.head?, n - ρ ≤ k) := by
  unfold Socket.read
  cases hs : s.cuts with
  | nil => exact ⟨ρ, [], rfl, .inr ⟨rfl, nofun⟩⟩
  | cons k cuts =>
    have hk : n ≤ k := hcuts k (by rw [hs]; rfl)
    by_cases hlast : k < ρ
    · exact ⟨k + 1, cuts, by simp only [if_pos hlast], .inl ⟨by omega, by omega⟩⟩
    · refine ⟨ρ, (k - ρ) :: cuts, by simp only [if_neg hlast], .inr ⟨rfl, ?_⟩⟩
      rintro _ ⟨⟩
      omega

/-- In the middle of a chunk. -/
theorem buf_consume_inChunk (hcapacity : 0 < capacity) {body n : ℕ} {s : Socket}
    (hcuts : ∀ k ∈ s.cuts.head?, n ≤ k) (hn : n < s.bytes.length) :
    (consume (headBodyRoom capacity body) n ⟨capacity, [], s⟩).buf = [] ↔
      EndsInChunk capacity body n := by
  induction n using Nat.strong_induction_on generalizing s with
  | _ n ih =>
    by_cases hn0 : n = 0
    · -- nothing is left to consume, and the buffer was empty
      subst hn0
      rw [EndsInChunk, Nat.zero_sub, roundUp_zero hcapacity]
      exact iff_of_true rfl (.inl rfl)
    have hpos : 0 < n := Nat.pos_of_ne_zero hn0
    obtain ⟨j, cuts, hread, hj⟩ := read_chunk (headBodyRoom capacity body n) hcuts
    by_cases hover : n < headBodyRoom capacity body n
    · -- the read goes past the end of the body
      have hj' : n < j := by
        rcases hj with ⟨hj, -⟩ | ⟨rfl, -⟩
        · exact hj
        · exact hover
      refine iff_of_false (consume_overrun hread hpos hj' hn) ?_
      rw [EndsInChunk]
      by_cases hbody : n ≤ body
      · rw [headBodyRoom, if_pos hbody, exactRoom] at hover
        rw [Nat.sub_eq_zero_of_le hbody, roundUp_zero hcapacity]
        omega
      · rw [headBodyRoom, if_neg hbody] at hover
        rw [roundUp_step hcapacity (Nat.sub_pos_of_lt (Nat.lt_of_not_le hbody))]
        omega
    · -- the read brings as much as there is room for
      obtain ⟨rfl, hcuts'⟩ := hj.resolve_left fun h => hover h.2
      have hle := Nat.le_of_not_lt hover
      have hnext : 0 < headBodyRoom capacity body n →
          consume (headBodyRoom capacity body) n ⟨capacity, [], s⟩ =
            consume (headBodyRoom capacity body) (n - headBodyRoom capacity body n)
              ⟨capacity, [], ⟨s.bytes.drop (headBodyRoom capacity body n), cuts⟩⟩ :=
        fun hroom0 => consume_read hread hroom0 hle (hle.trans hn.le)
      by_cases hbody : n ≤ body
      · -- past the buffer, to the end of the body
        rw [headBodyRoom, if_pos hbody, exactRoom] at hover
        have hroom : headBodyRoom capacity body n = n := by
          rw [headBodyRoom, if_pos hbody, exactRoom]
          omega
        rw [hroom] at hnext
        rw [hnext hpos, Nat.sub_self, EndsInChunk, Nat.sub_eq_zero_of_le hbody,
          roundUp_zero hcapacity]
        exact iff_of_true rfl (.inr (by omega))
      · -- a whole buffer of the head
        have hroom : headBodyRoom capacity body n = capacity := by
          rw [headBodyRoom, if_neg hbody]
        rw [hroom] at hnext hover hcuts'
        rw [hnext hcapacity, ih (n - capacity) (by omega) hcuts'
          (by rw [List.length_drop]; omega), EndsInChunk, EndsInChunk,
          roundUp_step hcapacity (n := n - body) (by omega), Nat.sub_right_comm]
        omega

/-- **When the buffer is empty** after the reads of a head and a body: when the last of them ends
with the body. -/
theorem buf_consume_iff (hcapacity : 0 < capacity) {body n : ℕ} {bytes : List UInt8}
    {cuts : List ℕ} (hn : n < bytes.length) :
    (consume (headBodyRoom capacity body) n ⟨capacity, [], ⟨bytes, cuts⟩⟩).buf = [] ↔
      EndsRead capacity body cuts n := by
  induction cuts generalizing n bytes with
  | nil => exact buf_consume_inChunk hcapacity nofun hn
  | cons k cuts ih =>
    rw [EndsRead]
    by_cases hk : k < n
    · -- the consumption goes on in the next chunk, with an empty buffer
      have hroom : ∀ t, 0 < t → 0 < headBodyRoom capacity body t := by
        intro t ht
        unfold headBodyRoom exactRoom
        split_ifs <;> omega
      rw [if_pos hk, consume_chunk hroom hk hn.le]
      exact ih (by rw [List.length_drop]; omega)
    · -- it ends in this chunk
      rw [if_neg hk]
      apply buf_consume_inChunk hcapacity _ hn
      rintro _ ⟨⟩
      exact Nat.le_of_not_lt hk

end BufReader

end ByteStream
