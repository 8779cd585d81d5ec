import Fosipcore.Library.Json
import Mathlib.Data.Char
import Mathlib.Data.List.Lex

/-!
# The values of JSON texts

A text gives the entries of its objects as they are written. In a value they are a map: they are
ordered by their keys, and of several entries with one key the last one stays.

## Main definitions

* `Json.Sorted`: the entries of a map
* `Json.toValue`: the value of what is written

## Main results

* `Json.insertAll_of_sorted`: inserting the entries of a map again gives the map
* `Json.lookup_insertAll`: what is looked up in a map that values were inserted into
* `Json.toValue_toValue`: a value is its own value
-/

open Text

namespace Json

/-- The entries of a map, in the order of their keys. -/
def Sorted (entries : List (Str × Json)) : Prop := entries.Pairwise fun a b => a.1 < b.1

theorem Sorted.insert {key : Str} {value : Json} {entries : List (Str × Json)}
    (h : Sorted entries) : Sorted (insert key value entries) := by
  induction entries with
  | nil => exact List.pairwise_singleton _ _
  | cons first entries ih =>
    obtain ⟨key', value'⟩ := first
    obtain ⟨hfirst, hrest⟩ := List.pairwise_cons.mp h
    rw [Json.insert]
    split_ifs with hlt heq
    · refine List.pairwise_cons.mpr ⟨fun entry hentry => ?_, h⟩
      rcases List.mem_cons.mp hentry with rfl | hentry
      · exact hlt
      · exact lt_trans hlt (hfirst entry hentry)
    · refine List.pairwise_cons.mpr ⟨fun entry hentry => ?_, hrest⟩
      rw [heq]
      exact hfirst entry hentry
    · refine List.pairwise_cons.mpr ⟨fun entry hentry => ?_, ih hrest⟩
      rcases mem_insert hentry with rfl | hentry
      · exact lt_of_le_of_ne (not_lt.mp hlt) (Ne.symm heq)
      · exact hfirst entry hentry

theorem Sorted.insertAll (fields : List (Str × Json)) {entries : List (Str × Json)}
    (h : Sorted entries) : Sorted (insertAll fields entries) := by
  induction fields generalizing entries with
  | nil => exact h
  | cons field fields ih => exact ih h.insert

theorem Sorted.nodup {entries : List (Str × Json)} (h : Sorted entries) : (keys entries).Nodup :=
  List.pairwise_map.mpr (h.imp fun hlt => ne_of_lt hlt)

/-- With every key once, the value of an entry is that of its key. -/
theorem lookup_of_mem {key : Str} {value : Json} {entries : List (Str × Json)}
    (h : (keys entries).Nodup) (hentry : (key, value) ∈ entries) :
    lookup key entries = some value := by
  induction entries with
  | nil => cases hentry
  | cons first entries ih =>
    obtain ⟨key', value'⟩ := first
    obtain ⟨hfirst, hrest⟩ := List.nodup_cons.mp h
    rw [lookup_cons]
    rcases List.mem_cons.mp hentry with heq | hmem
    · obtain ⟨rfl, rfl⟩ := Prod.mk.inj heq
      exact if_pos rfl
    · have hne : key ≠ key' := by
        rintro rfl
        exact hfirst (List.mem_map.mpr ⟨_, hmem, rfl⟩)
      rw [if_neg hne, ih hrest hmem]

/-- A key behind all others is inserted at the end. -/
theorem insert_of_lt {key : Str} {value : Json} {entries : List (Str × Json)}
    (h : ∀ entry ∈ entries, entry.1 < key) :
    insert key value entries = entries ++ [(key, value)] := by
  induction entries with
  | nil => rfl
  | cons first entries ih =>
    obtain ⟨hfirst, hrest⟩ := List.forall_mem_cons.mp h
    rw [Json.insert, if_neg (not_lt_of_gt hfirst), if_neg (ne_of_gt hfirst), ih hrest,
      List.cons_append]

/-- **The entries of a map** make the map. -/
theorem insertAll_of_sorted {fields entries : List (Str × Json)} (h : Sorted (entries ++ fields)) :
    insertAll fields entries = entries ++ fields := by
  induction fields generalizing entries with
  | nil => exact (List.append_nil _).symm
  | cons field fields ih =>
    obtain ⟨key, value⟩ := field
    have hlast : ∀ entry ∈ entries, entry.1 < key :=
      fun entry hentry => (List.pairwise_append.mp h).2.2 entry hentry _ List.mem_cons_self
    have hsorted : Sorted (entries ++ [(key, value)] ++ fields) := by
      rwa [List.append_assoc, List.singleton_append]
    calc insertAll ((key, value) :: fields) entries
        = insertAll fields (insert key value entries) := rfl
      _ = insertAll fields (entries ++ [(key, value)]) := by rw [insert_of_lt hlast]
      _ = entries ++ (key, value) :: fields := by
        rw [ih hsorted, List.append_assoc, List.singleton_append]

/-- Values are looked up among those that were inserted first, if no key comes twice. -/
theorem lookup_insertAll {fields : List (Str × Json)} (h : (keys fields).Nodup)
    (entries : List (Str × Json)) (k : Str) :
    lookup k (insertAll fields entries) = (lookup k fields).or (lookup k entries) := by
  induction fields generalizing entries with
  | nil => rfl
  | cons field fields ih =>
    obtain ⟨key, value⟩ := field
    obtain ⟨hkey, hrest⟩ := List.nodup_cons.mp h
    have hinsert : lookup k (insertAll ((key, value) :: fields) entries) =
        (lookup k fields).or (if k = key then some value else lookup k entries) := by
      rw [← lookup_insert]
      exact ih hrest _
    rw [hinsert, lookup_cons]
    split_ifs with hk
    · have hnone : lookup k fields = none := by
        rw [hk]
        exact Option.isNone_iff_eq_none.mp (by simpa using mt isSome_lookup.mp hkey)
      rw [hnone]
      rfl
    · rfl

mutual

/-- The value of what is written: objects become maps. -/
def toValue : Json → Json
  | .array items => .array (toValues items)
  | .object entries => .object (insertAll (toValueEntries entries) [])
  | .null => .null
  | .bool b => .bool b
  | .number n => .number n
  | .string s => .string s

def toValues : List Json → List Json
  | [] => []
  | item :: items => toValue item :: toValues items

def toValueEntries : List (Str × Json) → List (Str × Json)
  | [] => []
  | (key, value) :: entries => (key, toValue value) :: toValueEntries entries

end

/-- Entries whose values are values stay as they are. -/
theorem toValueEntries_eq_self {entries : List (Str × Json)}
    (h : ∀ entry ∈ entries, toValue entry.2 = entry.2) : toValueEntries entries = entries := by
  induction entries with
  | nil => rfl
  | cons first entries ih =>
    obtain ⟨hfirst, hrest⟩ := List.forall_mem_cons.mp h
    rw [toValueEntries, hfirst, ih hrest]

mutual

/-- **A value is its own value.** -/
theorem toValue_toValue : ∀ v : Json, toValue (toValue v) = toValue v
  | .array items => by rw [toValue, toValue, toValues_toValues items]
  | .object entries => by
    have hvalues : ∀ entry ∈ insertAll (toValueEntries entries) [], toValue entry.2 = entry.2 := by
      intro entry hentry
      rcases mem_insertAll hentry with hentry | hentry
      · exact toValue_of_mem entries entry hentry
      · cases hentry
    have hsorted : Sorted (insertAll (toValueEntries entries) []) :=
      Sorted.insertAll _ List.Pairwise.nil
    rw [toValue, toValue, toValueEntries_eq_self hvalues, insertAll_of_sorted hsorted,
      List.nil_append]
  | .null => rfl
  | .bool _ => rfl
  | .number _ => rfl
  | .string _ => rfl

theorem toValues_toValues : ∀ items : List Json, toValues (toValues items) = toValues items
  | [] => rfl
  | item :: items => by rw [toValues, toValues, toValue_toValue item, toValues_toValues items]

theorem toValue_of_mem : ∀ (entries : List (Str × Json)), ∀ entry ∈ toValueEntries entries,
    toValue entry.2 = entry.2
  | [], _, hentry => by cases hentry
  | (_, value) :: entries, entry, hentry => by
    rw [toValueEntries] at hentry
    rcases List.mem_cons.mp hentry with rfl | hentry
    · exact toValue_toValue value
    · exact toValue_of_mem entries entry hentry

end

end Json
