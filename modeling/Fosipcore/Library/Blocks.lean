import Mathlib.Data.List.Basic

/-!
# Block machines

A block machine reads its input in blocks of a fixed size, keeps a state and emits one output for
every complete block. Input that arrives in pieces leaves a remainder of less than a block, which
goes in front of the next piece: the outputs and the state do not depend on the pieces.

## Main definitions

* `runBlocks f size n s xs`: the outputs and the final state over the first `n` blocks of `xs`
* `blocks f size s xs`: those over all complete blocks
* `remainder size xs`: what is left behind them

## Main results

* `runBlocks_add`, `runBlocks_append`: runs compose, and look at their blocks only
* `blocks_append`: the outputs of two pieces are those of the whole
-/

namespace Blocks

variable {σ α β : Type*} (f : σ → List α → β × σ) (size : ℕ)

/-- The outputs of the first `n` blocks, in order, and the state behind them. -/
def runBlocks : ℕ → σ → List α → List β × σ
  | 0, s, _ => ([], s)
  | n + 1, s, xs =>
    let (y, s) := f s (xs.take size)
    let (ys, s) := runBlocks n s (xs.drop size)
    (y :: ys, s)

@[simp] theorem runBlocks_zero (s : σ) (xs : List α) : runBlocks f size 0 s xs = ([], s) := rfl

theorem runBlocks_succ (n : ℕ) (s : σ) (xs : List α) :
    runBlocks f size (n + 1) s xs =
      ((f s (xs.take size)).1 :: (runBlocks f size n (f s (xs.take size)).2 (xs.drop size)).1,
        (runBlocks f size n (f s (xs.take size)).2 (xs.drop size)).2) := rfl

@[simp] theorem length_runBlocks (n : ℕ) (s : σ) (xs : List α) :
    (runBlocks f size n s xs).1.length = n := by
  induction n generalizing s xs with
  | zero => rfl
  | succ n ih => simp only [runBlocks_succ, List.length_cons, ih]

/-- **Runs compose.** -/
theorem runBlocks_add (m n : ℕ) (s : σ) (xs : List α) :
    runBlocks f size (m + n) s xs =
      ((runBlocks f size m s xs).1 ++
          (runBlocks f size n (runBlocks f size m s xs).2 (xs.drop (m * size))).1,
        (runBlocks f size n (runBlocks f size m s xs).2 (xs.drop (m * size))).2) := by
  induction m generalizing s xs with
  | zero => simp
  | succ m ih =>
    have hdrop : (xs.drop size).drop (m * size) = xs.drop ((m + 1) * size) := by
      rw [List.drop_drop, Nat.succ_mul, Nat.add_comm]
    simp only [Nat.succ_add, runBlocks_succ, ih, hdrop, List.cons_append]

/-- A run looks at its own blocks only. -/
theorem runBlocks_append {m : ℕ} {xs : List α} (h : m * size ≤ xs.length) (s : σ) (ys : List α) :
    runBlocks f size m s (xs ++ ys) = runBlocks f size m s xs := by
  induction m generalizing s xs with
  | zero => rfl
  | succ m ih =>
    rw [Nat.succ_mul] at h
    have hsize : size ≤ xs.length := by omega
    have hrest : m * size ≤ (xs.drop size).length := by
      rw [List.length_drop]
      omega
    simp only [runBlocks_succ, List.take_append_of_le_length hsize,
      List.drop_append_of_le_length hsize, ih hrest]

/-- The run over all complete blocks. -/
def blocks (s : σ) (xs : List α) : List β × σ := runBlocks f size (xs.length / size) s xs

/-- What is left behind the complete blocks. -/
def remainder (xs : List α) : List α := xs.drop (xs.length / size * size)

theorem length_remainder (xs : List α) : (remainder size xs).length = xs.length % size := by
  have hmod := Nat.div_add_mod xs.length size
  rw [Nat.mul_comm] at hmod
  rw [remainder, List.length_drop]
  omega

/-- The blocks of the whole are those of the first piece, and those of its remainder with the
second. -/
theorem div_append (xs ys : List α) (hsize : 0 < size) :
    (xs ++ ys).length / size =
      xs.length / size + (remainder size xs ++ ys).length / size := by
  have hmod := Nat.div_add_mod xs.length size
  have hlength : (xs ++ ys).length =
      (remainder size xs ++ ys).length + size * (xs.length / size) := by
    rw [List.length_append, List.length_append, length_remainder]
    omega
  rw [hlength, Nat.add_mul_div_left _ _ hsize, Nat.add_comm]

theorem drop_append (xs ys : List α) :
    (xs ++ ys).drop (xs.length / size * size) = remainder size xs ++ ys :=
  List.drop_append_of_le_length (Nat.div_mul_le_self _ _)

/-- The remainder of two pieces. -/
theorem remainder_append (xs ys : List α) (hsize : 0 < size) :
    remainder size (xs ++ ys) = remainder size (remainder size xs ++ ys) := by
  rw [remainder, div_append size xs ys hsize, Nat.add_mul, ← List.drop_drop, drop_append]
  rfl

/-- **The outputs of two pieces are those of the whole.** -/
theorem blocks_append (s : σ) (xs ys : List α) (hsize : 0 < size) :
    blocks f size s (xs ++ ys) =
      ((blocks f size s xs).1 ++
          (blocks f size (blocks f size s xs).2 (remainder size xs ++ ys)).1,
        (blocks f size (blocks f size s xs).2 (remainder size xs ++ ys)).2) := by
  -- the blocks of the first piece are complete before the second comes
  have hfirst : runBlocks f size (xs.length / size) s (xs ++ ys) = blocks f size s xs :=
    runBlocks_append f size (Nat.div_mul_le_self _ _) s ys
  rw [blocks, div_append size xs ys hsize, runBlocks_add, hfirst, drop_append]
  rfl

/-- Every output of a run is that of a complete block. -/
theorem exists_of_mem_runBlocks {n : ℕ} {s : σ} {xs : List α} {y : β} (hn : n * size ≤ xs.length)
    (h : y ∈ (runBlocks f size n s xs).1) :
    ∃ (s' : σ) (block : List α), block.length = size ∧ y = (f s' block).1 := by
  induction n generalizing s xs with
  | zero => cases h
  | succ n ih =>
    rw [Nat.succ_mul] at hn
    rw [runBlocks_succ] at h
    rcases List.mem_cons.mp h with rfl | h
    · exact ⟨s, xs.take size, List.length_take_of_le (by omega), rfl⟩
    · exact ih (by rw [List.length_drop]; omega) h

theorem exists_of_mem_blocks {s : σ} {xs : List α} {y : β} (h : y ∈ (blocks f size s xs).1) :
    ∃ (s' : σ) (block : List α), block.length = size ∧ y = (f s' block).1 :=
  exists_of_mem_runBlocks f size (Nat.div_mul_le_self _ _) h

theorem blocks_of_lt {xs : List α} (h : xs.length < size) (s : σ) :
    blocks f size s xs = ([], s) := by
  rw [blocks, Nat.div_eq_of_lt h]
  rfl

theorem remainder_of_lt {xs : List α} (h : xs.length < size) : remainder size xs = xs := by
  rw [remainder, Nat.div_eq_of_lt h, Nat.zero_mul, List.drop_zero]

/-- The first block, and the others. -/
theorem blocks_of_le {xs : List α} (hsize : 0 < size) (h : size ≤ xs.length) (s : σ) :
    blocks f size s xs =
      ((f s (xs.take size)).1 :: (blocks f size (f s (xs.take size)).2 (xs.drop size)).1,
        (blocks f size (f s (xs.take size)).2 (xs.drop size)).2) := by
  have hdiv : xs.length / size = (xs.drop size).length / size + 1 := by
    rw [List.length_drop, Nat.div_eq_sub_div hsize h]
  rw [blocks, hdiv, runBlocks_succ]
  rfl

theorem remainder_of_le {xs : List α} (hsize : 0 < size) (h : size ≤ xs.length) :
    remainder size xs = remainder size (xs.drop size) := by
  have hdiv : xs.length / size = (xs.drop size).length / size + 1 := by
    rw [List.length_drop, Nat.div_eq_sub_div hsize h]
  rw [remainder, hdiv, Nat.succ_mul, Nat.add_comm, ← List.drop_drop]
  rfl

end Blocks
