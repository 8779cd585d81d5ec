import Fosipcore.Video.HttpFlv

/-!
# Clients that lag behind

The broadcast channel keeps a bounded number of tags. A receiver that is too slow loses the
oldest ones: its next call to `recv` reports how many, and the calls after it go on with the tags
that were retained. The writer task skips such a report, so what a client receives is the file
header and a subsequence of whole tags, without the runs it was told it lost.

## Main definitions

* `Recv`, `Receives`: the outcomes of `recv`, and what they may be for the tags of a broadcast
* `streamLoop`: the writer task of a client
* `streamBody`: the bytes of the response

## Main results

* `stream_lagging`: the response is empty, or the file header and the tags that were not lost
-/

namespace Fosipcore

open FlvContainer Transducer

/-- An outcome of `recv` on a broadcast channel. -/
inductive Recv where
  | ok (data : List UInt8)
  | lagged (n : ℕ)
  | closed

/-- **What a receiver may see** of the values broadcast since it subscribed, in which order, which
values reach it and which are still to come: a retained value, the number of values in a run that
it lost, or the end of the channel behind the last value. -/
inductive Receives : List (List UInt8) → List Recv → List (List UInt8) → List (List UInt8) → Prop
  | waiting (pending : List (List UInt8)) : Receives pending [] [] pending
  | closed : Receives [] [.closed] [] []
  | ok {data : List UInt8} {values kept pending : List (List UInt8)} {rs : List Recv} :
      Receives values rs kept pending → Receives (data :: values) (.ok data :: rs)
        (data :: kept) pending
  | lagged {lost values kept pending : List (List UInt8)} {rs : List Recv} :
      lost ≠ [] → Receives values rs kept pending →
      Receives (lost ++ values) (.lagged lost.length :: rs) kept pending

/-- The chunk of a tag: the file header goes in front of the first one. -/
def chunk (first : Bool) (header : Option (List UInt8)) (data : List UInt8) : List UInt8 :=
  if first then header.getD [] ++ data else data

/-- The writer task: the chunks it sends, by the outcomes of `recv`, each with whether the client
still takes the chunk that follows it. -/
def streamLoop (first : Bool) (header : Option (List UInt8)) :
    List (Recv × Bool) → List (List UInt8)
  | [] => []
  | (.ok data, isOk) :: rest =>
    if isOk then
      chunk first header data :: streamLoop false (if first then none else header) rest
    -- the client is gone
    else []
  | (.lagged _, _) :: rest => streamLoop first header rest
  | (.closed, _) :: _ => []

/-- The bytes of the response to a client. -/
def streamBody (header : List UInt8) (outcomes : List (Recv × Bool)) : List UInt8 :=
  (streamLoop true (some header) outcomes).flatten

/-- The number of values that a receiver was told it lost. -/
def lostCount : List Recv → ℕ
  | [] => 0
  | .lagged n :: rs => n + lostCount rs
  | _ :: rs => lostCount rs

namespace Receives

variable {values kept pending : List (List UInt8)} {rs : List Recv}

/-- The values that reach the receiver keep their order. -/
theorem sublist (h : Receives values rs kept pending) : kept.Sublist values := by
  induction h with
  | waiting pending => exact List.nil_sublist pending
  | closed => exact List.Sublist.refl []
  | @ok data _ _ _ _ _ ih => exact ih.cons_cons data
  | @lagged lost _ _ _ _ _ _ ih => exact ih.trans (List.sublist_append_right lost _)

/-- A value reaches the receiver, is in a run that it lost, or is still to come. -/
theorem length_eq (h : Receives values rs kept pending) :
    values.length = kept.length + lostCount rs + pending.length := by
  induction h with
  | waiting => simp [lostCount]
  | closed => rfl
  | ok _ ih =>
    simp only [List.length_cons, lostCount]
    omega
  | lagged _ _ ih =>
    simp only [List.length_append, lostCount]
    omega

end Receives

/-! ## The writer task -/

/-- The chunks of the tags: the first of them may carry the file header. -/
def chunks (first : Bool) (header : Option (List UInt8)) : List (List UInt8) → List (List UInt8)
  | [] => []
  | data :: tags => chunk first header data :: tags

theorem chunks_later (header : Option (List UInt8)) (tags : List (List UInt8)) :
    chunks false header tags = tags := by
  cases tags <;> rfl

theorem flatten_chunks (header : List UInt8) (tags : List (List UInt8)) :
    (chunks true (some header) tags).flatten =
      if tags = [] then [] else header ++ tags.flatten := by
  cases tags with
  | nil => rfl
  | cons data tags =>
    rw [if_neg (List.cons_ne_nil data tags), List.flatten_cons, ← List.append_assoc]
    rfl

/-- The loop sends the chunks of the tags it receives, until the client is gone. -/
theorem streamLoop_eq {outcomes : List (Recv × Bool)} {values kept pending : List (List UInt8)}
    (h : Receives values (outcomes.map Prod.fst) kept pending) (first : Bool)
    (header : Option (List UInt8)) :
    ∃ sent, sent <+: kept ∧ ((∀ r ∈ outcomes, r.2 = true) → sent = kept) ∧
      streamLoop first header outcomes = chunks first header sent := by
  induction outcomes generalizing values kept first header with
  | nil =>
    cases h
    exact ⟨[], List.prefix_rfl, fun _ => rfl, rfl⟩
  | cons r outcomes ih =>
    obtain ⟨r, isOk⟩ := r
    obtain ⟨rs, hrs⟩ : ∃ rs, rs = outcomes.map Prod.fst := ⟨_, rfl⟩
    rw [List.map_cons, ← hrs] at h
    cases h with
    | closed => exact ⟨[], List.prefix_rfl, fun _ => rfl, rfl⟩
    | @ok data _ kept _ _ h =>
      rw [hrs] at h
      cases isOk with
      | false =>
        exact ⟨[], List.nil_prefix, fun hok => by simpa using hok _ List.mem_cons_self, rfl⟩
      | true =>
        -- the header leaves with this tag, and the others follow as they are
        obtain ⟨sent, hsent, hall, hloop⟩ := ih h false (if first then none else header)
        refine ⟨data :: sent, List.cons_prefix_cons.mpr ⟨rfl, hsent⟩, fun hok => ?_, ?_⟩
        · rw [hall fun r hr => hok r (List.mem_cons_of_mem _ hr)]
        · rw [streamLoop, if_pos rfl, hloop, chunks_later]
          rfl
    | lagged _ h =>
      rw [hrs] at h
      obtain ⟨sent, hsent, hall, hloop⟩ := ih h first header
      exact ⟨sent, hsent, fun hok => hall fun r hr => hok r (List.mem_cons_of_mem _ hr), hloop⟩

/-- **What a lagging client receives is valid FLV**: nothing, or the file header and then whole
tags, in the order of the broadcast and without the runs that were lost, up to the point where
the client goes; it demultiplexes into these tags. -/
theorem stream_lagging {outcomes : List (Recv × Bool)} {values kept pending : List (List UInt8)}
    (h : Receives values (outcomes.map Prod.fst) kept pending) (header : List UInt8) :
    kept.Sublist values ∧
      values.length = kept.length + lostCount (outcomes.map Prod.fst) + pending.length ∧
      ∃ sent, sent <+: kept ∧ ((∀ r ∈ outcomes, r.2 = true) → sent = kept) ∧
        streamBody header outcomes = (if sent = [] then [] else header ++ sent.flatten) ∧
        ∀ flags (tags : List Tag), header = fileHeader flags → values = tags.map Tag.encode →
          ∃ sub, sub.Sublist tags ∧ sent = sub.map Tag.encode ∧
            (sent ≠ [] → demux (streamBody header outcomes) = some (flags, sub)) := by
  obtain ⟨sent, hsent, hall, hloop⟩ := streamLoop_eq h true (some header)
  have hbody : streamBody header outcomes = if sent = [] then [] else header ++ sent.flatten := by
    rw [streamBody, hloop, flatten_chunks]
  refine ⟨h.sublist, h.length_eq, sent, hsent, hall, hbody, ?_⟩
  rintro flags tags rfl rfl
  obtain ⟨sub, hsub, rfl⟩ := List.sublist_map_iff.mp (hsent.sublist.trans h.sublist)
  refine ⟨sub, hsub, rfl, fun hne => ?_⟩
  rw [hbody, if_neg hne]
  exact demux_encode flags sub

/-- An audio tag of one byte. -/
def byteTag (b : UInt8) : Tag := ⟨0x08, 0, [b], by rw [List.length_singleton]; decide⟩

/-- The first two of three tags are lost before the client has received any. -/
theorem stream_lagging_two :
    demux (streamBody flvAudioHeader [(.lagged 2, true), (.ok (byteTag 3).encode, true),
      (.closed, true)]) = some (0x04, [byteTag 3]) := by
  have h : Receives ([(byteTag 1).encode, (byteTag 2).encode] ++ [(byteTag 3).encode])
      [.lagged 2, .ok (byteTag 3).encode, .closed] [(byteTag 3).encode] [] :=
    .lagged (by simp) (.ok .closed)
  obtain ⟨-, -, sent, -, hall, -, hdemux⟩ :=
    @stream_lagging [(.lagged 2, true), (.ok (byteTag 3).encode, true), (.closed, true)] _ _ _ h
      flvAudioHeader
  obtain rfl := hall (by simp)
  obtain ⟨sub, -, hsub, hplayer⟩ := hdemux 0x04 [byteTag 1, byteTag 2, byteTag 3] rfl rfl
  rw [hplayer (List.cons_ne_nil _ _)]
  -- the bytes of a tag are those of no other
  obtain ⟨t, rfl, ht⟩ := List.map_eq_singleton_iff.mp hsub.symm
  have hparse := (parseTag_encode t []).symm.trans
    ((congrArg (fun bs => parseTag (bs ++ [])) ht).trans (parseTag_encode (byteTag 3) []))
  obtain ⟨rfl, -⟩ := Prod.mk.inj (Option.some.inj hparse)
  rfl

end Fosipcore
