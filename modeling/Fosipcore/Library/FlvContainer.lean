import Fosipcore.Library.BigEndian

/-!
# The FLV container

An FLV stream is a nine-byte file header and a zero `PreviousTagSize`, followed by tags. A tag
is an eleven-byte header, a body and a `PreviousTagSize` of eleven plus the size of that body;
the header carries the size in 24 bits, the timestamp as its low 24 bits followed by its high
8 bits, and a zero stream identifier. The demultiplexer checks every one of these fields.

## Main definitions

* `Tag`, `Tag.encode`: a tag whose body fits its 24-bit size, and its bytes
* `fileHeader flags`: the file header and the first `PreviousTagSize`
* `parseTag`, `demux`: the demultiplexer, of one tag and of a whole stream
* `AvcConfig`, `parseAvcConfig`: the parameter sets of an AVC configuration record
* `Media`, `Tag.media`: what a player reads in the body of a tag
* `Fields`, `readFields`: the fields of a tag by itself, whatever its sizes say
* `Part`, `Fields.part`, `readPart`: what the body of a tag is for

## Main results

* `parseTag_encode`: a tag in front of any bytes is parsed back
* `demux_encode`: the bytes of a list of tags demultiplex into that list
* `parseAvcConfig_record`: a configuration record with one set of each kind parses back
* `length_of_parseAvcConfig`: a parsed configuration holds sets of less than `2 ^ 16` bytes
* `readFields_encode`, `media_eq`: the fields and the media of a tag are those of its bytes
-/

namespace FlvContainer

open BigEndian

/-- An FLV tag. The body fits the 24-bit `DataSize` of its header. -/
structure Tag where
  tagType : UInt8
  timestamp : UInt32
  body : List UInt8
  body_lt : body.length < 2 ^ 24
  deriving DecidableEq

/-- The bytes of a tag: its header, its body and the `PreviousTagSize` that follows it. -/
def Tag.encode (t : Tag) : List UInt8 :=
  [t.tagType] ++ toBytes 3 t.body.length ++ toBytes 3 t.timestamp.toNat ++
    toBytes 1 (t.timestamp.toNat / 2 ^ 24) ++ toBytes 3 0 ++ t.body ++
    toBytes 4 (11 + t.body.length)

/-- The file header with the given type flags, and the first `PreviousTagSize`. -/
def fileHeader (flags : UInt8) : List UInt8 :=
  [0x46, 0x4C, 0x56, 1, flags] ++ toBytes 4 9 ++ toBytes 4 0

/-- Parse one tag in front of a byte string, checking its stream identifier and the
`PreviousTagSize` behind it. -/
def parseTag (bs : List UInt8) : Option (Tag × List UInt8) := do
  let (tagType, bs) ← readField 1 bs
  let (dataSize, bs) ← readField 3 bs
  let (low, bs) ← readField 3 bs
  let (high, bs) ← readField 1 bs
  let (streamId, bs) ← readField 3 bs
  -- the body comes before its `PreviousTagSize`, and fails with it when it is cut short
  let (previous, rest) ← readField 4 (bs.drop dataSize)
  if h : dataSize < 2 ^ 24 ∧ streamId = 0 ∧ previous = 11 + dataSize then
    some (⟨UInt8.ofNat tagType, UInt32.ofNat (high * 2 ^ 24 + low), bs.take dataSize,
      (List.length_take_le _ _).trans_lt h.1⟩, rest)
  else none

/-- Parse a sequence of tags; `fuel` bounds their number. -/
def parseTags : ℕ → List UInt8 → Option (List Tag)
  | _, [] => some []
  | 0, _ :: _ => none
  | fuel + 1, b :: bs => do
    let (t, rest) ← parseTag (b :: bs)
    let ts ← parseTags fuel rest
    some (t :: ts)

/-- **The demultiplexer**: the type flags of the file header and the tags after it. -/
def demux : List UInt8 → Option (UInt8 × List Tag)
  | 0x46 :: 0x4C :: 0x56 :: 1 :: flags :: bs => do
    let (dataOffset, bs) ← readField 4 bs
    let (previous, bs) ← readField 4 bs
    if dataOffset = 9 ∧ previous = 0 then
      let ts ← parseTags bs.length bs
      some (flags, ts)
    else none
  | _ => none

/-! ## Demultiplexing undoes encoding -/

theorem Tag.length_encode (t : Tag) : t.encode.length = 15 + t.body.length := by
  simp [Tag.encode]
  omega

theorem readField_one (b : UInt8) (rest : List UInt8) :
    readField 1 (b :: rest) = some (b.toNat, rest) := by
  have h := readField_append (show [b].length = 1 from rfl) rest
  simpa [ofBytes] using h

theorem timestamp_split (t : UInt32) :
    UInt32.ofNat (t.toNat / 2 ^ 24 * 2 ^ 24 + t.toNat % 2 ^ 24) = t := by
  rw [Nat.div_add_mod', UInt32.ofNat_toNat]

/-- The fields of a tag, one behind the other. -/
theorem parseTag_of_fields {bs afterType afterSize afterLow afterHigh afterId rest : List UInt8}
    {tagType dataSize low high streamId previous : ℕ}
    (htype : readField 1 bs = some (tagType, afterType))
    (hsize : readField 3 afterType = some (dataSize, afterSize))
    (hlow : readField 3 afterSize = some (low, afterLow))
    (hhigh : readField 1 afterLow = some (high, afterHigh))
    (hid : readField 3 afterHigh = some (streamId, afterId))
    (hprevious : readField 4 (afterId.drop dataSize) = some (previous, rest))
    (h : dataSize < 2 ^ 24 ∧ streamId = 0 ∧ previous = 11 + dataSize) :
    parseTag bs = some (⟨UInt8.ofNat tagType, UInt32.ofNat (high * 2 ^ 24 + low),
      afterId.take dataSize, (List.length_take_le _ _).trans_lt h.1⟩, rest) := by
  simp only [parseTag, htype, hsize, hlow, hhigh, hid, hprevious, Option.bind_eq_bind,
    Option.bind_some, dif_pos h]

/-- **A tag in front of any bytes is parsed back**, and those bytes are left over. -/
theorem parseTag_encode (t : Tag) (rest : List UInt8) :
    parseTag (t.encode ++ rest) = some (t, rest) := by
  obtain ⟨tagType, timestamp, body, hbody⟩ := t
  have hts := timestamp.toNat_lt
  have hsize : body.length < 256 ^ 3 := by omega
  have hhigh : timestamp.toNat / 2 ^ 24 < 256 ^ 1 := by omega
  have hprevious : 11 + body.length < 256 ^ 4 := by omega
  have hencode : Tag.encode ⟨tagType, timestamp, body, hbody⟩ ++ rest =
      tagType :: (toBytes 3 body.length ++ (toBytes 3 timestamp.toNat ++
        (toBytes 1 (timestamp.toNat / 2 ^ 24) ++ (toBytes 3 0 ++
          (body ++ (toBytes 4 (11 + body.length) ++ rest)))))) := by
    simp only [Tag.encode, List.append_assoc, List.cons_append, List.nil_append]
  -- the low field holds the timestamp modulo its width; the other fields hold their numbers
  have hlow : ∀ bs, readField 3 (toBytes 3 timestamp.toNat ++ bs) =
      some (timestamp.toNat % 256 ^ 3, bs) := fun bs => by
    rw [readField_append (length_toBytes _ _), ofBytes_toBytes_mod]
  have hdrop : readField 4 ((body ++ (toBytes 4 (11 + body.length) ++ rest)).drop body.length) =
      some (11 + body.length, rest) := by
    rw [List.drop_left, readField_toBytes hprevious]
  rw [hencode, parseTag_of_fields (readField_one _ _) (readField_toBytes hsize _) (hlow _)
    (readField_toBytes hhigh _) (readField_toBytes (by decide) _) hdrop ⟨hbody, rfl, rfl⟩]
  have htimestamp : UInt32.ofNat (timestamp.toNat / 2 ^ 24 * 2 ^ 24 + timestamp.toNat % 256 ^ 3) =
      timestamp := timestamp_split timestamp
  simp only [UInt8.ofNat_toNat, htimestamp, List.take_left]

theorem parseTags_encode (ts : List Tag) :
    ∀ fuel, ts.length ≤ fuel → parseTags fuel (ts.map Tag.encode).flatten = some ts := by
  induction ts with
  | nil => intro fuel _; cases fuel <;> rfl
  | cons t ts ih =>
    intro fuel hfuel
    obtain ⟨fuel, rfl⟩ : ∃ n, fuel = n + 1 := ⟨fuel - 1, by simp at hfuel; omega⟩
    obtain ⟨b, bs, hb⟩ : ∃ b bs, t.encode ++ (ts.map Tag.encode).flatten = b :: bs :=
      ⟨_, _, rfl⟩
    have hparse := parseTag_encode t (ts.map Tag.encode).flatten
    rw [hb] at hparse
    simp only [List.map_cons, List.flatten_cons, hb, parseTags, hparse, Option.bind_eq_bind,
      Option.bind_some, ih fuel (by simpa using hfuel)]

/-- **The bytes of a list of tags demultiplex into that list.** -/
theorem demux_encode (flags : UInt8) (ts : List Tag) :
    demux (fileHeader flags ++ (ts.map Tag.encode).flatten) = some (flags, ts) := by
  -- there are no more tags than bytes, so the fuel is enough
  have hlen : ts.length ≤ (ts.map Tag.encode).flatten.length := by
    induction ts with
    | nil => simp
    | cons t ts ih =>
      simp only [List.map_cons, List.flatten_cons, List.length_append, List.length_cons,
        t.length_encode]
      omega
  simp only [fileHeader, demux, List.cons_append, List.nil_append, List.append_assoc,
    readField_toBytes (k := 4) (show 9 < 256 ^ 4 by decide),
    readField_toBytes (k := 4) (show 0 < 256 ^ 4 by decide), Option.bind_eq_bind,
    Option.bind_some, and_self, if_true, parseTags_encode ts _ hlen]

/-! ## What a player reads in a tag -/

/-- The AVC packet type of a video tag: `0` for the sequence header, `1` for a NAL unit. -/
def Tag.avcPacketType (t : Tag) : Option UInt8 :=
  if t.tagType = 9 then t.body[1]? else none

/-- The AAC packet type of an audio tag: `0` for the sequence header, `1` for a raw frame. -/
def Tag.aacPacketType (t : Tag) : Option UInt8 :=
  if t.tagType = 8 then t.body[1]? else none

/-- An AVC decoder configuration record: profile, compatibility and level, the width of the
length field in front of each NAL unit, and the parameter sets. -/
structure AvcConfig where
  profile : UInt8
  compatibility : UInt8
  level : UInt8
  lengthSize : ℕ
  sps : List (List UInt8)
  pps : List (List UInt8)
  deriving DecidableEq

/-- Parse `n` parameter sets, each behind its 16-bit length. -/
def parseSets : ℕ → List UInt8 → Option (List (List UInt8) × List UInt8)
  | 0, bs => some ([], bs)
  | n + 1, bs => do
    let (len, bs) ← readField 2 bs
    if len ≤ bs.length then
      let (sets, rest) ← parseSets n (bs.drop len)
      some (bs.take len :: sets, rest)
    else none

/-- Parse a configuration record, up to the end of the bytes. -/
def parseAvcConfig : List UInt8 → Option AvcConfig
  | 1 :: profile :: compatibility :: level :: lengthByte :: spsCount :: bs => do
    let (sps, bs) ← parseSets (spsCount &&& 0x1F).toNat bs
    let (ppsCount, bs) ← readField 1 bs
    let (pps, bs) ← parseSets ppsCount bs
    if bs = [] then
      some ⟨profile, compatibility, level, (lengthByte &&& 0x03).toNat + 1, sps, pps⟩
    else none
  | _ => none

theorem parseSets_one {set : List UInt8} (h : set.length < 2 ^ 16) (rest : List UInt8) :
    parseSets 1 (toBytes 2 set.length ++ (set ++ rest)) = some ([set], rest) := by
  simp [parseSets, readField_toBytes (k := 2) (show set.length < 256 ^ 2 from h)]

/-- **A configuration record with one set of each kind parses back**, when the 16-bit lengths
hold the sizes of the sets. -/
theorem parseAvcConfig_record (profile compatibility level : UInt8) {sps pps : List UInt8}
    (hsps : sps.length < 2 ^ 16) (hpps : pps.length < 2 ^ 16) :
    parseAvcConfig ([1, profile, compatibility, level, 0xFF, 0xE1] ++ toBytes 2 sps.length ++
        sps ++ [1] ++ toBytes 2 pps.length ++ pps) =
      some ⟨profile, compatibility, level, 4, [sps], [pps]⟩ := by
  -- the first set is followed by the count and the bytes of the second, which ends the record
  have hsps' := parseSets_one hsps ([1] ++ (toBytes 2 pps.length ++ pps))
  have hpps' := parseSets_one hpps []
  rw [List.append_nil] at hpps'
  simp only [List.cons_append, List.nil_append] at hsps'
  simp only [parseAvcConfig, List.cons_append, List.nil_append, List.append_assoc,
    show ((0xE1 : UInt8) &&& 0x1F).toNat = 1 from rfl,
    show ((0xFF : UInt8) &&& 0x03).toNat + 1 = 4 from rfl, hsps', hpps', readField_one,
    show (1 : UInt8).toNat = 1 from rfl, Option.bind_eq_bind, Option.bind_some, if_true]

/-- A set that is parsed has its length in 16 bits. -/
theorem length_of_parseSets {n : ℕ} {bs rest : List UInt8} {sets : List (List UInt8)}
    (h : parseSets n bs = some (sets, rest)) : ∀ set ∈ sets, set.length < 2 ^ 16 := by
  induction n generalizing bs sets with
  | zero =>
    obtain ⟨rfl, -⟩ := Prod.mk.inj (Option.some.inj h)
    simp
  | succ n ih =>
    obtain ⟨⟨len, bs'⟩, hlen, hsets⟩ := Option.bind_eq_some_iff.mp h
    dsimp only at hsets
    split_ifs at hsets
    obtain ⟨⟨sets', rest'⟩, hparse, heq⟩ := Option.bind_eq_some_iff.mp hsets
    obtain ⟨rfl, rfl⟩ := Prod.mk.inj (Option.some.inj heq)
    intro set hset
    rcases List.mem_cons.mp hset with rfl | hset
    · exact (List.length_take_le _ _).trans_lt (lt_of_readField hlen)
    · exact ih hparse set hset

/-- **A parsed configuration** holds sets of less than `2 ^ 16` bytes. -/
theorem length_of_parseAvcConfig {bs : List UInt8} {config : AvcConfig}
    (h : parseAvcConfig bs = some config) :
    (∀ set ∈ config.sps, set.length < 2 ^ 16) ∧ ∀ set ∈ config.pps, set.length < 2 ^ 16 := by
  unfold parseAvcConfig at h
  split at h
  · obtain ⟨⟨sps, bs₁⟩, hsps, h⟩ := Option.bind_eq_some_iff.mp h
    obtain ⟨⟨count, bs₂⟩, -, h⟩ := Option.bind_eq_some_iff.mp h
    obtain ⟨⟨pps, bs₃⟩, hpps, h⟩ := Option.bind_eq_some_iff.mp h
    dsimp only at h
    split_ifs at h
    obtain rfl := Option.some.inj h
    exact ⟨length_of_parseSets hsps, length_of_parseSets hpps⟩
  · cases h

/-- The content of a tag body: a script call with its name and encoded argument, or the parts
of an AVC or AAC stream. -/
inductive Media where
  | script (name argument : List UInt8)
  | avcSequenceHeader (config : AvcConfig)
  | avcNalu (keyframe : Bool) (data : List UInt8)
  | aacSequenceHeader (config : List UInt8)
  | aacRaw (data : List UInt8)
  deriving DecidableEq

/-- Read the body of a tag by its type. -/
def Tag.media (t : Tag) : Option Media :=
  match t.tagType, t.body with
  | 18, 0x02 :: bs => do
    let (len, bs) ← readField 2 bs
    some (.script (bs.take len) (bs.drop len))
  | 9, frame :: 0 :: _ :: _ :: _ :: data =>
    if frame &&& 0x0F = 7 then (parseAvcConfig data).map .avcSequenceHeader else none
  | 9, frame :: 1 :: _ :: _ :: _ :: data =>
    if frame &&& 0x0F = 7 then some (.avcNalu (frame >>> 4 == 1) data) else none
  | 8, sound :: 0 :: data => if sound >>> 4 = 10 then some (.aacSequenceHeader data) else none
  | 8, sound :: 1 :: data => if sound >>> 4 = 10 then some (.aacRaw data) else none
  | _, _ => none

/-- The sets that a player reads in a sequence header have their lengths in 16 bits. -/
theorem length_of_media {t : Tag} {config : AvcConfig}
    (h : t.media = some (.avcSequenceHeader config)) :
    (∀ set ∈ config.sps, set.length < 2 ^ 16) ∧ ∀ set ∈ config.pps, set.length < 2 ^ 16 := by
  unfold Tag.media at h
  split at h
  · obtain ⟨_, -, h⟩ := Option.bind_eq_some_iff.mp h
    cases h
  · split_ifs at h
    obtain ⟨config', hconfig, heq⟩ := Option.map_eq_some_iff.mp h
    obtain rfl := Media.avcSequenceHeader.inj heq
    exact length_of_parseAvcConfig hconfig
  all_goals
    first
      | cases h
      | split_ifs at h
        cases h

/-! ## A tag by itself -/

/-- The fields of a tag. The body may be longer than its 24-bit size tells. -/
structure Fields where
  tagType : UInt8
  timestamp : UInt32
  body : List UInt8
  deriving DecidableEq

def Tag.fields (t : Tag) : Fields := ⟨t.tagType, t.timestamp, t.body⟩

/-- **Read the bytes of one tag**: its body is what is between the header and the size behind it. The
sizes are not looked at. -/
def readFields (bs : List UInt8) : Option Fields := do
  let (tagType, bs) ← readField 1 bs
  let (_, bs) ← readField 3 bs
  let (low, bs) ← readField 3 bs
  let (high, bs) ← readField 1 bs
  let (streamId, bs) ← readField 3 bs
  if streamId = 0 ∧ 4 ≤ bs.length then
    some ⟨UInt8.ofNat tagType, UInt32.ofNat (high * 2 ^ 24 + low), bs.take (bs.length - 4)⟩
  else none

/-- The fields of a tag are read, whatever its sizes. -/
theorem readFields_append (tagType : UInt8) (timestamp : UInt32) (body : List UInt8)
    {size previous : List UInt8} (hsize : size.length = 3) (hprevious : previous.length = 4) :
    readFields ([tagType] ++ size ++ toBytes 3 timestamp.toNat ++
        toBytes 1 (timestamp.toNat / 2 ^ 24) ++ toBytes 3 0 ++ body ++ previous) =
      some ⟨tagType, timestamp, body⟩ := by
  have hts := timestamp.toNat_lt
  have hhigh : timestamp.toNat / 2 ^ 24 < 256 ^ 1 := by omega
  -- the low field holds the timestamp modulo its width
  have hlow : ∀ bs, readField 3 (toBytes 3 timestamp.toNat ++ bs) =
      some (timestamp.toNat % 256 ^ 3, bs) := fun bs => by
    rw [readField_append (length_toBytes _ _), ofBytes_toBytes_mod]
  have htimestamp : UInt32.ofNat (timestamp.toNat / 2 ^ 24 * 2 ^ 24 + timestamp.toNat % 256 ^ 3) =
      timestamp := timestamp_split timestamp
  have hlength : (body ++ previous).length = body.length + 4 := by
    rw [List.length_append, hprevious]
  simp only [readFields, List.append_assoc, List.cons_append, List.nil_append, readField_one,
    readField_append hsize, hlow, readField_toBytes hhigh,
    readField_toBytes (k := 3) (show 0 < 256 ^ 3 by decide), Option.bind_eq_bind,
    Option.bind_some, hlength, htimestamp, UInt8.ofNat_toNat]
  rw [if_pos ⟨trivial, Nat.le_add_left 4 _⟩, Nat.add_sub_cancel, List.take_left]

theorem readFields_encode (t : Tag) : readFields t.encode = some t.fields :=
  readFields_append t.tagType t.timestamp t.body (length_toBytes _ _) (length_toBytes _ _)

/-- What the body of a tag is for: a script call, or a part of an AVC or AAC stream. The record of an
AVC configuration is left as it is. -/
inductive Part where
  | script (name argument : List UInt8)
  | avcSequenceHeader (record : List UInt8)
  | avcNalu (keyframe : Bool) (data : List UInt8)
  | aacSequenceHeader (config : List UInt8)
  | aacRaw (data : List UInt8)
  deriving DecidableEq

/-- Read the body of a tag by its type. -/
def Fields.part (f : Fields) : Option Part :=
  match f.tagType, f.body with
  | 18, 0x02 :: bs => do
    let (len, bs) ← readField 2 bs
    some (.script (bs.take len) (bs.drop len))
  | 9, frame :: 0 :: _ :: _ :: _ :: data =>
    if frame &&& 0x0F = 7 then some (.avcSequenceHeader data) else none
  | 9, frame :: 1 :: _ :: _ :: _ :: data =>
    if frame &&& 0x0F = 7 then some (.avcNalu (frame >>> 4 == 1) data) else none
  | 8, sound :: 0 :: data => if sound >>> 4 = 10 then some (.aacSequenceHeader data) else none
  | 8, sound :: 1 :: data => if sound >>> 4 = 10 then some (.aacRaw data) else none
  | _, _ => none

/-- What the bytes of a tag are for. -/
def readPart (bs : List UInt8) : Option Part := (readFields bs).bind Fields.part

/-- A player reads the record of a configuration, and the other parts as they are. -/
def Part.media : Part → Option Media
  | .script name argument => some (.script name argument)
  | .avcSequenceHeader record => (parseAvcConfig record).map .avcSequenceHeader
  | .avcNalu keyframe data => some (.avcNalu keyframe data)
  | .aacSequenceHeader config => some (.aacSequenceHeader config)
  | .aacRaw data => some (.aacRaw data)

/-- **What a player reads in a tag** is what it reads in the part. -/
theorem media_eq (t : Tag) : t.media = t.fields.part.bind Part.media := by
  obtain ⟨tagType, timestamp, body, hbody⟩ := t
  unfold Tag.media Fields.part Tag.fields
  dsimp only
  split
  · rename_i bs
    cases readField 2 bs <;> rfl
  · split_ifs <;> rfl
  · split_ifs <;> rfl
  · split_ifs <;> rfl
  · split_ifs <;> rfl
  · rfl

end FlvContainer
