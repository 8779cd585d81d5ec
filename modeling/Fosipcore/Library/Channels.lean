import Mathlib.Data.List.Infix

/-!
# Bounded channels

A queue of bounded length connects one sender with one receiver. A broadcast retains the last of
the values that it was sent; each of its receivers has a position of its own. A receiver whose next
value is no longer retained is told how many values it lost, and goes on with the oldest one.

## Main definitions

* `BoundedQueue`: a queue, its length bounded by its capacity
* `Broadcast`: a broadcast, with the number of values that it was sent
* `Broadcast.Holds`: a broadcast retains the end of a history
* `Broadcast.View`: what a receiver got of a history since it subscribed

## Main results

* `Broadcast.Holds.send`: sending a value extends the history
* `Broadcast.View.value`, `Broadcast.View.lagged`: what a receiver gets next is the next value of
  the history, or the number of values up to the oldest one that is retained
* `Broadcast.View.eq_of_lossless`: without a loss a receiver got everything up to its position
* `Broadcast.recv_of_keepsUp`: a receiver that keeps up loses nothing
-/

/-- A queue of at most `capacity` values, the oldest one first. -/
structure BoundedQueue (α : Type*) (capacity : ℕ) where
  values : List α
  length_le : values.length ≤ capacity

namespace BoundedQueue

variable {α : Type*} {capacity : ℕ} {q q' : BoundedQueue α capacity} {v : α}

def empty : BoundedQueue α capacity := ⟨[], Nat.zero_le _⟩

/-- Send a value: a full queue does not take it. -/
def send (q : BoundedQueue α capacity) (v : α) : Option (BoundedQueue α capacity) :=
  if h : q.values.length < capacity then
    some ⟨q.values ++ [v], by simpa using Nat.succ_le_of_lt h⟩
  else none

/-- Receive the oldest value. -/
def recv (q : BoundedQueue α capacity) : Option (α × BoundedQueue α capacity) :=
  q.values.head?.map fun v => (v, ⟨q.values.tail, by simpa using q.length_le.trans (Nat.le_succ _)⟩)

theorem values_send (h : q.send v = some q') : q'.values = q.values ++ [v] := by
  unfold send at h
  split_ifs at h
  obtain rfl := Option.some.inj h
  rfl

theorem exists_send (h : q.values.length < capacity) (v : α) : ∃ q', q.send v = some q' :=
  ⟨_, dif_pos h⟩

theorem values_recv (h : q.recv = some (v, q')) : q.values = v :: q'.values := by
  obtain ⟨values, hlength⟩ := q
  cases values with
  | nil => cases h
  | cons first rest =>
    obtain ⟨rfl, rfl⟩ := Prod.mk.inj (Option.some.inj h)
    rfl

theorem recv_eq_none : q.recv = none ↔ q.values = [] := by
  obtain ⟨values, hlength⟩ := q
  cases values <;> simp [recv]

end BoundedQueue

/-- A broadcast: the number of values that it was sent, and the last of them, at most `capacity`.
A value that is sent while nobody has subscribed is counted as well: nobody can tell. -/
structure Broadcast (α : Type*) (capacity : ℕ) where
  sent : ℕ
  retained : List α
  length_eq : retained.length = min sent capacity

/-- What a receiver gets: a value, or the number of values that it lost. -/
inductive Received (α : Type*) where
  | value (v : α)
  | lagged (n : ℕ)

namespace Broadcast

variable {α : Type*} {capacity : ℕ}

def new : Broadcast α capacity := ⟨0, [], by simp⟩

/-- The position of the oldest value that is retained. -/
def oldest (b : Broadcast α capacity) : ℕ := b.sent - capacity

/-- Send a value: it takes the place of the oldest one, if there is no room. -/
def send (b : Broadcast α capacity) (v : α) : Broadcast α capacity where
  sent := b.sent + 1
  retained := (b.retained ++ [v]).drop (b.retained.length + 1 - capacity)
  length_eq := by
    have hlength := b.length_eq
    simp only [List.length_drop, List.length_append, List.length_singleton]
    omega

def sendAll (b : Broadcast α capacity) (vs : List α) : Broadcast α capacity := vs.foldl send b

/-- What a receiver gets at a position, and its position behind it: nothing behind the last
value. -/
def recv (b : Broadcast α capacity) (next : ℕ) : Option (Received α × ℕ) :=
  if next < b.oldest then some (.lagged (b.oldest - next), b.oldest)
  else b.retained[next - b.oldest]?.map fun v => (.value v, next + 1)

/-- The broadcast has been sent a history, and retains the end of it. -/
structure Holds (b : Broadcast α capacity) (history : List α) : Prop where
  sent : b.sent = history.length
  retained : b.retained = history.drop (history.length - capacity)

section Holds

variable {b : Broadcast α capacity} {history : List α}

theorem holds_new : (new : Broadcast α capacity).Holds [] := ⟨rfl, List.drop_nil.symm⟩

/-- **Sending a value** extends the history. -/
theorem Holds.send (h : b.Holds history) (v : α) : (b.send v).Holds (history ++ [v]) where
  sent := by
    rw [List.length_append, ← h.sent]
    rfl
  retained := by
    have hretained : b.retained.length = min history.length capacity := by
      rw [b.length_eq, h.sent]
    -- the history in front of the retained values is as long as the broadcast says
    have hsplit : history ++ [v] =
        history.take (history.length - capacity) ++ (b.retained ++ [v]) := by
      rw [h.retained, ← List.append_assoc, List.take_append_drop]
    have htake : (history.take (history.length - capacity)).length =
        history.length - capacity := by
      rw [List.length_take]
      omega
    have hdrop : (history ++ [v]).length - capacity =
        (history.take (history.length - capacity)).length + (b.retained.length + 1 - capacity) := by
      rw [List.length_append, List.length_singleton, htake, hretained]
      omega
    rw [hdrop, hsplit, List.drop_length_add_append]
    rfl

theorem Holds.sendAll (h : b.Holds history) (vs : List α) :
    (b.sendAll vs).Holds (history ++ vs) := by
  induction vs generalizing b history with
  | nil => rwa [List.append_nil]
  | cons v vs ih =>
    rw [List.append_cons]
    exact ih (h.send v)

theorem Holds.oldest (h : b.Holds history) : b.oldest = history.length - capacity := by
  rw [Broadcast.oldest, h.sent]

/-- A value that is received is that of its position. -/
theorem Holds.getElem (h : b.Holds history) {next : ℕ} (hnext : b.oldest ≤ next) :
    b.retained[next - b.oldest]? = history[next]? := by
  rw [h.retained, List.getElem?_drop, ← h.oldest]
  congr 1
  omega

end Holds

/-! ## Receivers -/

/-- **What a receiver got** of a history: it subscribed at `start` and is at `next`; the values that
reached it are in the order of the history, and the others between the two positions are lost. -/
structure View (history : List α) (start next : ℕ) (kept : List α) (lost : ℕ) : Prop where
  le_length : next ≤ history.length
  sublist : kept.Sublist ((history.take next).drop start)
  next_eq : next = start + kept.length + lost

namespace View

variable {b : Broadcast α capacity} {history kept : List α} {start next lost : ℕ}

/-- A receiver that has just subscribed. -/
theorem subscribe (history : List α) :
    View history history.length history.length [] 0 :=
  ⟨le_rfl, List.nil_sublist _, rfl⟩

/-- A receiver does not see what was sent since. -/
theorem extend (h : View history start next kept lost) (more : List α) :
    View (history ++ more) start next kept lost where
  le_length := by
    rw [List.length_append]
    exact h.le_length.trans (Nat.le_add_right _ _)
  sublist := by
    rw [List.take_append_of_le_length h.le_length]
    exact h.sublist
  next_eq := h.next_eq

/-- The positions between two are those up to a third one, and the others. -/
theorem take_drop_append (h : View history start next kept lost) {n : ℕ} (hn : next ≤ n) :
    (history.take n).drop start =
      (history.take next).drop start ++ (history.take n).drop next := by
  have hle := h.next_eq
  have hlength := h.le_length
  have htake : history.take next = (history.take n).take next := by
    rw [List.take_take, Nat.min_eq_left hn]
  have hsplit : history.take n = (history.take n).take next ++ (history.take n).drop next :=
    (List.take_append_drop next _).symm
  have hstart : start ≤ ((history.take n).take next).length := by
    rw [List.length_take, List.length_take]
    omega
  rw [htake]
  conv_lhs => rw [hsplit, List.drop_append_of_le_length hstart]

/-- **A value that is received** is the next one of the history. -/
theorem value (h : View history start next kept lost) (hb : b.Holds history) {v : α} {next' : ℕ}
    (hrecv : b.recv next = some (.value v, next')) :
    View history start next' (kept ++ [v]) lost := by
  have hnext := h.next_eq
  have hlength := h.le_length
  unfold recv at hrecv
  split_ifs at hrecv with hlagged
  · cases (Prod.mk.inj (Option.some.inj hrecv)).1
  rw [hb.getElem (Nat.le_of_not_lt hlagged)] at hrecv
  obtain ⟨v, hv, hpair⟩ := Option.map_eq_some_iff.mp hrecv
  obtain ⟨⟨⟩, rfl⟩ := Prod.mk.inj hpair
  obtain ⟨hlt, -⟩ := List.getElem?_eq_some_iff.mp hv
  refine ⟨hlt, ?_, ?_⟩
  · have hone : (history.take (next + 1)).drop next = [v] := by
      rw [List.take_add_one, hv, Option.toList_some,
        List.drop_left' (List.length_take_of_le hlength)]
    rw [h.take_drop_append (Nat.le_succ next), hone]
    exact List.Sublist.append_right h.sublist [v]
  · rw [List.length_append, List.length_singleton]
    omega

/-- **A receiver that lags** loses the values up to the oldest one that is retained. -/
theorem lagged (h : View history start next kept lost) (hb : b.Holds history) {n next' : ℕ}
    (hrecv : b.recv next = some (.lagged n, next')) :
    0 < n ∧ View history start next' kept (lost + n) := by
  have hnext := h.next_eq
  have hlength := h.le_length
  have holdest := hb.oldest
  unfold recv at hrecv
  split_ifs at hrecv with hlagged
  · -- the position jumps to the oldest retained value
    obtain ⟨hn, rfl⟩ := Prod.mk.inj (Option.some.inj hrecv)
    obtain rfl := Received.lagged.inj hn
    refine ⟨by omega, by omega, ?_, by omega⟩
    rw [h.take_drop_append hlagged.le]
    exact h.sublist.trans (List.sublist_append_left _ _)
  · obtain ⟨v, -, hpair⟩ := Option.map_eq_some_iff.mp hrecv
    cases (Prod.mk.inj hpair).1

/-- A receiver that gets nothing is at the end of the history. -/
theorem next_eq_length (h : View history start next kept lost) (hb : b.Holds history)
    (hrecv : b.recv next = none) : next = history.length := by
  unfold recv at hrecv
  split_ifs at hrecv with hlagged
  rw [hb.getElem (Nat.le_of_not_lt hlagged), Option.map_eq_none_iff,
    List.getElem?_eq_none_iff] at hrecv
  exact Nat.le_antisymm h.le_length hrecv

/-- **Without a loss** a receiver got everything up to its position. -/
theorem eq_of_lossless (h : View history start next kept 0) :
    kept = (history.take next).drop start := by
  apply h.sublist.eq_of_length
  have hnext := h.next_eq
  have hlength := h.le_length
  rw [List.length_drop, List.length_take]
  omega

end View

/-- **A receiver that keeps up loses nothing**: its next value is among those that are retained. -/
theorem recv_of_keepsUp {b : Broadcast α capacity} {next : ℕ} (h : b.sent ≤ next + capacity)
    {n next' : ℕ} : b.recv next ≠ some (.lagged n, next') := by
  intro hrecv
  unfold recv oldest at hrecv
  rw [if_neg (by omega)] at hrecv
  obtain ⟨v, -, hpair⟩ := Option.map_eq_some_iff.mp hrecv
  cases (Prod.mk.inj hpair).1

end Broadcast
