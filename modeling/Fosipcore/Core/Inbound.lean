import Fosipcore.Core.Envelopes
import Fosipcore.Library.JsonMap
import Mathlib.Algebra.Group.Nat.Defs
import Mathlib.Data.List.Perm.Basic

/-!
# The text of a message

An inbound message is an object, whose fields are known by their names: two of them by a second
name as well, for the browser is of two minds. Their order does not matter, and other fields are
ignored. The version and the id have to be there, everything else has a default, and no field may be
there twice, under whichever names. An array of the fields in their order is accepted, too.

What a text is as a JSON value is up to the JSON library.

## Main definitions

* `WsMessage.Field`, `WsMessage.Field.ofKey`: the fields of a message, and their names
* `WsMessage.fromValue`, `WsMessage.fromStr`: the message of a value, and of a text
* `WsMessage.WellFormed`: what a message can be

## Main results

* `WsMessage.wellFormed_iff`: the messages that are read are the well-formed ones
* `WsMessage.fromValue_object`: order, names and other fields do not matter
* `WsMessage.fromStr_print`: a message that is printed is read back
-/

namespace Fosipcore

open Text Json

namespace WsMessage

/-- The fields of a message, in their order. -/
inductive Field where
  | version
  | msgId
  | groupId
  | sequence
  | dataLen
  | cmdObject
  deriving DecidableEq

/-- The fields by their names: the id and the data length have two. -/
def Field.names : List (Str × Field) :=
  [("version".toList, .version), ("msgid".toList, .msgId), ("msgId".toList, .msgId),
    ("groupId".toList, .groupId), ("sequence".toList, .sequence), ("dataLen".toList, .dataLen),
    ("datalen".toList, .dataLen), ("cmdObject".toList, .cmdObject)]

/-- The field of a name; other names are ignored. -/
def Field.ofKey (key : Str) : Option Field := Field.names.lookup key

/-- The position of a field in an array. -/
def Field.index : Field → ℕ
  | .version => 0
  | .msgId => 1
  | .groupId => 2
  | .sequence => 3
  | .dataLen => 4
  | .cmdObject => 5

/-- The largest values of the unsigned types. -/
abbrev maxU32 : ℕ := 4294967295

abbrev maxU64 : ℕ := 18446744073709551615

/-- A number that has a default. -/
def numberOr0 (max : ℕ) : Option Json → Option ℕ
  | none => some 0
  | some v => asUnsigned max v

/-- A `null` is no command. -/
def command : Option Json → Option Json
  | none => none
  | some .null => none
  | some v => some (toValue v)

/-- The message of the fields: `none` is a field that is there twice, and `some none` one that is not
there. -/
def fromFields (field : Field → Option (Option Json)) : Option WsMessage := do
  let version ← (← field .version).bind (asUnsigned maxU32)
  let msgId ← (← field .msgId).bind (asUnsigned maxU32)
  let groupId ← numberOr0 maxU64 (← field .groupId)
  let sequence ← numberOr0 maxU32 (← field .sequence)
  let dataLen ← numberOr0 maxU64 (← field .dataLen)
  let cmdObject := command (← field .cmdObject)
  return ⟨version, msgId, groupId, sequence, dataLen, cmdObject⟩

/-- The entries of an object that are fields. -/
def knownFields (entries : List (Str × Json)) : List (Field × Json) :=
  entries.filterMap fun (key, value) => (Field.ofKey key).map (·, value)

/-- The only value of a field, if there is one. -/
def single (fields : List (Field × Json)) (field : Field) : Option (Option Json) :=
  match fields.filter (·.1 = field) with
  | [] => some none
  | [(_, value)] => some (some value)
  | _ => none

/-- Deserialize a message. -/
def fromValue : Json → Option WsMessage
  | .object entries => fromFields (single (knownFields entries))
  | .array items =>
    if 2 ≤ items.length ∧ items.length ≤ 6 then fromFields fun field => some items[field.index]?
    else none
  | _ => none

/-- The message of a text, for a JSON library that reads what is written in it. -/
def fromStr (parse : Str → Option Json) (text : Str) : Option WsMessage :=
  (parse text).bind fromValue

/-! ## Well-formed messages -/

/-- **What a message can be**: its numbers are in the ranges of their types, and its command is a
value, and not `null`. -/
structure WellFormed (msg : WsMessage) : Prop where
  version : msg.version ≤ maxU32
  msgId : msg.msgId ≤ maxU32
  groupId : msg.groupId ≤ maxU64
  sequence : msg.sequence ≤ maxU32
  dataLen : msg.dataLen ≤ maxU64
  cmdObject : ∀ cmd, msg.cmdObject = some cmd → cmd ≠ .null ∧ toValue cmd = cmd

theorem asUnsigned_le {max n : ℕ} {v : Json} (h : asUnsigned max v = some n) : n ≤ max := by
  unfold asUnsigned at h
  split at h
  · split_ifs at h with hrange
    obtain rfl := Option.some.inj h
    exact hrange.2
  · cases h

theorem asUnsigned_nat {max n : ℕ} (h : n ≤ max) : asUnsigned max (.nat n) = some n :=
  if_pos ⟨Int.natCast_nonneg n, h⟩

theorem numberOr0_le {max n : ℕ} {v : Option Json} (h : numberOr0 max v = some n) : n ≤ max := by
  cases v with
  | none =>
    obtain rfl := Option.some.inj h
    exact Nat.zero_le max
  | some v => exact asUnsigned_le h

theorem command_cases {v : Option Json} {cmd : Json} (h : command v = some cmd) :
    cmd ≠ .null ∧ toValue cmd = cmd := by
  unfold command at h
  split at h
  · cases h
  · cases h
  · rename_i v hnull
    obtain rfl := Option.some.inj h
    refine ⟨fun hvalue => ?_, toValue_toValue v⟩
    cases v with
    | null => exact hnull rfl
    | bool | number | string | array | object => cases hvalue

theorem command_of_ne_null {cmd : Json} (h : cmd ≠ .null) :
    command (some cmd) = some (toValue cmd) := by
  cases cmd with
  | null => exact absurd rfl h
  | bool | number | string | array | object => rfl

/-- What is read from fields is well formed. -/
theorem wellFormed_fromFields {field : Field → Option (Option Json)} {msg : WsMessage}
    (h : fromFields field = some msg) : msg.WellFormed := by
  simp only [fromFields, Option.bind_eq_bind, Option.bind_eq_some_iff, Option.pure_def] at h
  obtain ⟨_, _, version, ⟨_, _, hversion⟩, _, _, msgId, ⟨_, _, hmsgId⟩, _, _, groupId, hgroupId,
    _, _, sequence, hsequence, _, _, dataLen, hdataLen, cmd, _, hmsg⟩ := h
  obtain rfl := Option.some.inj hmsg
  exact ⟨asUnsigned_le hversion, asUnsigned_le hmsgId, numberOr0_le hgroupId,
    numberOr0_le hsequence, numberOr0_le hdataLen, fun _ hcmd => command_cases hcmd⟩

theorem wellFormed_fromValue {v : Json} {msg : WsMessage} (h : fromValue v = some msg) :
    msg.WellFormed := by
  unfold fromValue at h
  split at h
  · exact wellFormed_fromFields h
  · split_ifs at h
    exact wellFormed_fromFields h
  · cases h

/-! ## Order, names and other fields -/

/-- **The order of fields** does not matter. -/
theorem single_perm {fields fields' : List (Field × Json)} (h : fields.Perm fields') :
    single fields = single fields' := by
  funext field
  have hfilter := h.filter (·.1 = field)
  unfold single
  generalize fields.filter (·.1 = field) = found at hfilter
  generalize fields'.filter (·.1 = field) = found' at hfilter
  cases found with
  | nil => rw [hfilter.nil_eq]
  | cons first found =>
    cases found with
    | nil => rw [List.perm_singleton.mp hfilter.symm]
    | cons second found =>
      have hlength := hfilter.length_eq
      obtain _ | ⟨first', _ | ⟨second', found'⟩⟩ := found'
      · cases hlength
      · cases hlength
      · rfl

/-- The fields of a message. -/
def fields (msg : WsMessage) : List (Field × Json) :=
  [(.version, .nat msg.version), (.msgId, .nat msg.msgId), (.groupId, .nat msg.groupId),
    (.sequence, .nat msg.sequence), (.dataLen, .nat msg.dataLen)] ++
    (msg.cmdObject.map fun cmd => (Field.cmdObject, cmd)).toList

/-- The value of a field in a message. -/
def fieldValue (msg : WsMessage) : Field → Option Json
  | .version => some (.nat msg.version)
  | .msgId => some (.nat msg.msgId)
  | .groupId => some (.nat msg.groupId)
  | .sequence => some (.nat msg.sequence)
  | .dataLen => some (.nat msg.dataLen)
  | .cmdObject => msg.cmdObject

theorem single_fields (msg : WsMessage) (field : Field) :
    single msg.fields field = some (msg.fieldValue field) := by
  obtain ⟨version, msgId, groupId, sequence, dataLen, cmdObject⟩ := msg
  cases cmdObject <;> cases field <;> rfl

/-- The fields of a message are read back. -/
theorem fromFields_fields {msg : WsMessage} (h : msg.WellFormed) :
    fromFields (single msg.fields) = some msg := by
  have hcommand : command msg.cmdObject = msg.cmdObject := by
    cases hcmd : msg.cmdObject with
    | none => rfl
    | some cmd =>
      obtain ⟨hnull, hvalue⟩ := h.cmdObject cmd hcmd
      rw [command_of_ne_null hnull, hvalue]
  simp only [fromFields, single_fields, fieldValue, Option.bind_eq_bind, Option.bind_some,
    numberOr0, asUnsigned_nat h.version, asUnsigned_nat h.msgId, asUnsigned_nat h.groupId,
    asUnsigned_nat h.sequence, asUnsigned_nat h.dataLen, hcommand, Option.pure_def]

/-- The fields that have a default, with it. -/
def defaults : List (Field × Json) := [(.groupId, .nat 0), (.sequence, .nat 0), (.dataLen, .nat 0)]

/-- A field that is not there is like one with its default. -/
theorem fromFields_omitted {field field' : Field → Option (Option Json)}
    (h : ∀ f, field f = field' f ∨
      ∃ v, (f, v) ∈ defaults ∧ field f = some none ∧ field' f = some (some v)) :
    fromFields field = fromFields field' := by
  have hnumber : ∀ f max (k : ℕ → Option WsMessage),
      ((field f).bind fun v => (numberOr0 max v).bind k) =
        (field' f).bind fun v => (numberOr0 max v).bind k := by
    intro f max k
    rcases h f with heq | ⟨v, hv, hnone, hsome⟩
    · rw [heq]
    · have hzero : v = .nat 0 := by
        simp only [defaults, List.mem_cons, List.not_mem_nil, or_false, Prod.mk.injEq] at hv
        rcases hv with ⟨-, rfl⟩ | ⟨-, rfl⟩ | ⟨-, rfl⟩ <;> rfl
      have hdefault : numberOr0 max (some (.nat 0)) = some 0 := asUnsigned_nat (Nat.zero_le max)
      rw [hnone, hsome, hzero, Option.bind_some, Option.bind_some, hdefault]
      rfl
  have hother : ∀ f, f ∉ [Field.groupId, .sequence, .dataLen] → field f = field' f := by
    intro f hf
    refine (h f).resolve_right ?_
    rintro ⟨v, hv, -⟩
    have hmem : f ∈ defaults.map Prod.fst := List.mem_map_of_mem hv
    exact hf hmem
  have hversion := hother .version (by decide)
  have hmsgId := hother .msgId (by decide)
  have hcmdObject := hother .cmdObject (by decide)
  simp only [fromFields, Option.bind_eq_bind, hversion, hmsgId, hcmdObject, hnumber]

/-- Fields with their defaults can be left out. -/
theorem fromFields_single {known omitted : List (Field × Json)} {msg : WsMessage}
    (homitted : omitted ⊆ defaults) (hfields : (known ++ omitted).Perm msg.fields) :
    fromFields (single known) = fromFields (single msg.fields) := by
  rw [← single_perm hfields]
  apply fromFields_omitted
  intro f
  have hsingle : single (known ++ omitted) f = some (msg.fieldValue f) := by
    rw [single_perm hfields, single_fields]
  rw [single, List.filter_append] at hsingle
  rw [single, single, List.filter_append]
  cases homit : omitted.filter (·.1 = f) with
  | nil =>
    left
    rw [List.append_nil]
  | cons first rest =>
    -- the field is not there twice, so it was left out
    right
    rw [homit] at hsingle
    obtain ⟨hmem, hfirst⟩ := List.mem_filter.mp (homit ▸ List.mem_cons_self)
    obtain ⟨f', v⟩ := first
    obtain rfl : f' = f := of_decide_eq_true hfirst
    cases hknown : known.filter (·.1 = f') with
    | nil =>
      rw [hknown, List.nil_append] at hsingle
      cases rest with
      | nil => exact ⟨v, homitted hmem, rfl, rfl⟩
      | cons => cases hsingle
    | cons first' rest' =>
      rw [hknown] at hsingle
      cases rest' <;> cases hsingle

/-- **The message of an object**: the order of its fields does not matter, nor by which of its names a
field is known, and neither do other fields and those that are left out with their defaults. -/
theorem fromValue_object {entries : List (Str × Json)} {msg : WsMessage} (h : msg.WellFormed)
    {omitted : List (Field × Json)} (homitted : omitted ⊆ defaults)
    (hfields : (knownFields entries ++ omitted).Perm msg.fields) :
    fromValue (.object entries) = some msg := by
  rw [fromValue, fromFields_single homitted hfields, fromFields_fields h]

theorem knownFields_messageEntries (msg : WsMessage) :
    knownFields (Dispatch.messageEntries msg) = msg.fields := by
  obtain ⟨version, msgId, groupId, sequence, dataLen, cmdObject⟩ := msg
  cases cmdObject <;> rfl

theorem fromValue_toJson {msg : WsMessage} (h : msg.WellFormed) :
    fromValue msg.toJson = some msg := by
  apply fromValue_object h (List.nil_subset _)
  rw [List.append_nil]
  exact .of_eq (knownFields_messageEntries msg)

/-! ## Texts -/

section Texts

variable {parse : Str → Option Json}

/-- **A JSON library reads back what it has printed**: values with integers of 64 bits, whose arrays
and objects are nested less than 128 deep. What becomes of other values is left open. -/
def ReadsBack (parse : Str → Option Json) : Prop :=
  ∀ v, Readable 127 v → parse v.print = some v

theorem readsBack_read : ReadsBack Json.read := fun _ h => read_print h.integral

theorem readable_nat {max n : ℕ} (h : n ≤ max) (hmax : max < 2 ^ 64) (depth : ℕ) :
    Readable depth (.nat n) := by
  rw [Json.nat, Readable]
  omega

/-- The value of a well-formed message. -/
theorem readable_toJson {msg : WsMessage} (h : msg.WellFormed)
    (hcmd : ∀ cmd ∈ msg.cmdObject, Readable 126 cmd) : Readable 127 msg.toJson := by
  have hversion := readable_nat h.version (by decide) 126
  have hmsgId := readable_nat h.msgId (by decide) 126
  have hgroupId := readable_nat h.groupId (by decide) 126
  have hsequence := readable_nat h.sequence (by decide) 126
  have hdataLen := readable_nat h.dataLen (by decide) 126
  obtain ⟨version, msgId, groupId, sequence, dataLen, cmdObject⟩ := msg
  refine ⟨Nat.succ_pos 126, ?_⟩
  cases cmdObject with
  | none => exact ⟨hversion, hmsgId, hgroupId, hsequence, hdataLen, trivial⟩
  | some cmd => exact ⟨hversion, hmsgId, hgroupId, hsequence, hdataLen, hcmd cmd rfl, trivial⟩

/-- **A message is read back from its text** if it is well formed, for a JSON library that reads what
it has printed; and no other message is. -/
theorem fromStr_print (hparse : ReadsBack parse) {msg : WsMessage}
    (hcmd : ∀ cmd ∈ msg.cmdObject, Readable 126 cmd) :
    fromStr parse msg.print = some msg ↔ msg.WellFormed := by
  constructor
  · intro h
    obtain ⟨v, -, hv⟩ := Option.bind_eq_some_iff.mp h
    exact wellFormed_fromValue hv
  · intro h
    rw [fromStr, print, hparse _ (readable_toJson h hcmd), Option.bind_some, fromValue_toJson h]

/-- **What was accepted once is accepted again**: a message that was read from any text, however it
was spelled, is the message of the text that it prints as. -/
theorem fromStr_fromStr (hparse : ReadsBack parse) {text : Str} {msg : WsMessage}
    (h : fromStr parse text = some msg) (hcmd : ∀ cmd ∈ msg.cmdObject, Readable 126 cmd) :
    fromStr parse msg.print = some msg := by
  obtain ⟨v, -, hv⟩ := Option.bind_eq_some_iff.mp h
  exact (fromStr_print hparse hcmd).mpr (wellFormed_fromValue hv)

/-- A port request in the browser's spelling, and the text that it prints as. -/
theorem fromStr_fromStr_request :
    fromStr Json.read (WsMessage.print ⟨1, 20000, 123456789, 0, 0, none⟩) =
      some ⟨1, 20000, 123456789, 0, 0, none⟩ := by
  have htext : fromStr Json.read (Json.object [("version".toList, .nat 1),
      ("msgId".toList, .nat 20000), ("groupId".toList, .nat 123456789),
      ("sequence".toList, .nat 0), ("datalen".toList, .nat 0)]).print =
      some ⟨1, 20000, 123456789, 0, 0, none⟩ := by
    rw [fromStr, read_print rfl]
    rfl
  exact fromStr_fromStr readsBack_read htext (by rintro _ ⟨⟩)

/-- **The spelling of a message** does not matter: its fields may come in any order, under either of
their names, among other fields, and without those that have their defaults. -/
theorem fromStr_object (hparse : ReadsBack parse) {entries : List (Str × Json)}
    (hentries : ∀ entry ∈ entries, Readable 126 entry.2) {msg : WsMessage} (h : msg.WellFormed)
    {omitted : List (Field × Json)} (homitted : omitted ⊆ defaults)
    (hfields : (knownFields entries ++ omitted).Perm msg.fields) :
    fromStr parse (Json.object entries).print = some msg := by
  have hobject : Readable 127 (.object entries) :=
    ⟨Nat.succ_pos 126, readableEntries_iff.mpr hentries⟩
  rw [fromStr, hparse _ hobject, Option.bind_some, fromValue_object h homitted hfields]

/-- A heartbeat, without the fields that the browser leaves out. -/
theorem fromStr_object_heartbeat :
    fromStr Json.read (Json.object [("msgId".toList, .nat 99999), ("version".toList, .nat 1),
      ("datalen".toList, .nat 0), ("debug".toList, .bool true)]).print =
      some ⟨1, 99999, 0, 0, 0, none⟩ := by
  have hentries : ∀ entry ∈ [("msgId".toList, Json.nat 99999), ("version".toList, .nat 1),
      ("datalen".toList, .nat 0), ("debug".toList, .bool true)], Readable 126 entry.2 := by
    simp [Readable, Json.nat]
  have hwellFormed : WellFormed ⟨1, 99999, 0, 0, 0, none⟩ :=
    ⟨by decide, by decide, by decide, by decide, by decide, by rintro _ ⟨⟩⟩
  have homitted : [(Field.groupId, Json.nat 0), (.sequence, .nat 0)] ⊆ defaults :=
    (List.prefix_append _ [(Field.dataLen, Json.nat 0)]).subset
  have hdataLen : ([(Field.dataLen, Json.nat 0)] ++
      [(Field.groupId, Json.nat 0), (.sequence, .nat 0)]).Perm
      ([(Field.groupId, Json.nat 0), (.sequence, .nat 0)] ++ [(Field.dataLen, Json.nat 0)]) :=
    List.perm_append_comm
  exact fromStr_object readsBack_read hentries hwellFormed homitted
    (.trans (.swap _ _ _) ((hdataLen.cons _).cons _))

end Texts

end WsMessage

end Fosipcore
