import Mathlib.Data.Finset.Insert
import Mathlib.Data.Finset.Erase

/-!
# The live-port pool

Every logged-in session allocates a loopback port for its HTTP-FLV listener. A counter walks
through the range; a candidate is handed out if it is not in use and a throwaway bind on it
succeeds.

## Main definitions

* `PortPool`, `PortPool.alloc`, `PortPool.release`: the pool

## Main results

* `PortPool.alloc_some`, `PortPool.alloc_none`: what an allocation does to the ports in use
* `PortPool.allocLoop_none_iff`: an allocation fails if and only if no candidate is free
-/

namespace Fosipcore

/-- A pool over `[base, base + count)`: the counter never resets, and `inUse` holds the ports
that were handed out and not released. -/
structure PortPool where
  base : UInt16
  count : UInt16
  next : UInt16
  inUse : Finset UInt16
  count_pos : 0 < count.toNat
  deriving DecidableEq

namespace PortPool

/-- A fresh pool; `count` is clamped to at least one. -/
def new (base count : UInt16) : PortPool where
  base := base
  count := if count = 0 then 1 else count
  next := 0
  inUse := ∅
  count_pos := by
    split_ifs with h
    · decide
    · refine Nat.pos_of_ne_zero fun hzero => h ?_
      exact UInt16.toNat_inj.mp hzero

/-- The candidate at the current position of the counter, wrapped into the 16-bit port space. -/
def candidate (pool : PortPool) : UInt16 :=
  UInt16.ofNat ((pool.base.toNat + pool.next.toNat % pool.count.toNat) % 65536)

/-- The counter moves on, wrapping around. -/
def advance (pool : PortPool) : PortPool := { pool with next := pool.next + 1 }

/-- The loop of `alloc` over at most `n` candidates. `probe k` is the outcome of the throwaway
bind when `k` candidates are left. -/
def allocLoop (probe : ℕ → UInt16 → Bool) : ℕ → PortPool → Option UInt16 × PortPool
  | 0, pool => (none, pool)
  | n + 1, pool =>
    let candidate := pool.candidate
    let pool := pool.advance
    if candidate ∈ pool.inUse then allocLoop probe n pool
    else if probe n candidate then
      (some candidate, { pool with inUse := insert candidate pool.inUse })
    else allocLoop probe n pool

/-- Allocate a free port, or `none` if the pool is exhausted. -/
def alloc (probe : ℕ → UInt16 → Bool) (pool : PortPool) : Option UInt16 × PortPool :=
  pool.allocLoop probe pool.count.toNat

/-- Release a previously allocated port. -/
def release (pool : PortPool) (port : UInt16) : PortPool :=
  { pool with inUse := pool.inUse.erase port }

/-- The loop hands out a port that was not in use and adds it, or leaves the ports as they
were. -/
theorem allocLoop_inUse (probe : ℕ → UInt16 → Bool) (n : ℕ) (pool : PortPool) :
    (∃ port, port ∉ pool.inUse ∧ (allocLoop probe n pool).1 = some port ∧
      (allocLoop probe n pool).2.inUse = insert port pool.inUse) ∨
    ((allocLoop probe n pool).1 = none ∧ (allocLoop probe n pool).2.inUse = pool.inUse) := by
  induction n generalizing pool with
  | zero => exact .inr ⟨rfl, rfl⟩
  | succ n ih =>
    rw [allocLoop]
    split_ifs with huse hprobe
    · exact ih pool.advance
    · exact .inl ⟨pool.candidate, huse, rfl, rfl⟩
    · exact ih pool.advance

/-- **An allocated port was not in use, and is afterwards.** -/
theorem alloc_some {probe : ℕ → UInt16 → Bool} {pool pool' : PortPool} {port : UInt16}
    (h : pool.alloc probe = (some port, pool')) :
    port ∉ pool.inUse ∧ pool'.inUse = insert port pool.inUse := by
  rcases allocLoop_inUse probe pool.count.toNat pool with ⟨p, hp, hsome, huse⟩ | ⟨hnone, -⟩
  · rw [show pool.allocLoop probe pool.count.toNat = _ from h] at hsome huse
    obtain rfl := Option.some.inj hsome
    exact ⟨hp, huse⟩
  · rw [show pool.allocLoop probe pool.count.toNat = _ from h] at hnone
    cases hnone

/-- A failed allocation leaves the ports in use alone. -/
theorem alloc_none {probe : ℕ → UInt16 → Bool} {pool pool' : PortPool}
    (h : pool.alloc probe = (none, pool')) : pool'.inUse = pool.inUse := by
  rcases allocLoop_inUse probe pool.count.toNat pool with ⟨p, -, hsome, -⟩ | ⟨-, huse⟩
  · rw [show pool.allocLoop probe pool.count.toNat = _ from h] at hsome
    cases hsome
  · rw [show pool.allocLoop probe pool.count.toNat = _ from h] at huse
    exact huse

/-! ## Exhaustion -/

/-- The pool with its counter moved on by some steps. -/
def skip (pool : PortPool) (k : ℕ) : PortPool := { pool with next := pool.next + .ofNat k }

theorem skip_zero (pool : PortPool) : pool.skip 0 = pool := by
  simp [skip]

theorem skip_advance (pool : PortPool) (k : ℕ) : pool.advance.skip k = pool.skip (k + 1) := by
  have hnext : pool.next + 1 + UInt16.ofNat k = pool.next + UInt16.ofNat (k + 1) := by
    rw [UInt16.ofNat_add, UInt16.add_assoc, UInt16.add_comm 1]
    rfl
  simp only [skip, advance, hnext]

/-- The counter does not come back to where it was within one allocation. -/
theorem skip_count_ne (pool : PortPool) : pool.skip pool.count.toNat ≠ pool := by
  intro h
  have hnext : pool.next + .ofNat pool.count.toNat = pool.next := congrArg next h
  have hcount := congrArg UInt16.toNat hnext
  have hlt := pool.next.toNat_lt
  have hlt' := pool.count.toNat_lt
  have hpos := pool.count_pos
  rw [UInt16.ofNat_toNat, UInt16.toNat_add] at hcount
  omega

/-- None of the candidates of an allocation is free. -/
def Exhausted (probe : ℕ → UInt16 → Bool) (n : ℕ) (pool : PortPool) : Prop :=
  ∀ k < n, (pool.skip k).candidate ∈ pool.inUse ∨
    probe (n - 1 - k) (pool.skip k).candidate = false

theorem exhausted_succ {probe : ℕ → UInt16 → Bool} {n : ℕ} {pool : PortPool} :
    pool.Exhausted probe (n + 1) ↔
      (pool.candidate ∈ pool.inUse ∨ probe n pool.candidate = false) ∧
        pool.advance.Exhausted probe n := by
  constructor
  · intro h
    constructor
    · have hfirst := h 0 (Nat.succ_pos n)
      rwa [skip_zero] at hfirst
    · intro k hk
      have hnext := h (k + 1) (by omega)
      rw [skip_advance, show n - 1 - k = n + 1 - 1 - (k + 1) by omega]
      exact hnext
  · rintro ⟨hfirst, hrest⟩ k hk
    cases k with
    | zero => rwa [skip_zero]
    | succ k =>
      have hnext := hrest k (by omega)
      rw [skip_advance] at hnext
      rwa [show n + 1 - 1 - (k + 1) = n - 1 - k by omega]

/-- **An allocation fails if and only if none of its candidates is free**, and moves the counter
past all of them. -/
theorem allocLoop_none_iff {probe : ℕ → UInt16 → Bool} {n : ℕ} {pool pool' : PortPool} :
    pool.allocLoop probe n = (none, pool') ↔ pool.Exhausted probe n ∧ pool' = pool.skip n := by
  induction n generalizing pool with
  | zero =>
    rw [allocLoop, skip_zero]
    constructor
    · rintro ⟨⟩
      exact ⟨nofun, rfl⟩
    · rintro ⟨-, rfl⟩
      rfl
  | succ n ih =>
    rw [allocLoop, exhausted_succ]
    split_ifs with huse hprobe
    · rw [ih, skip_advance, and_assoc]
      exact (and_iff_right (.inl huse)).symm
    · constructor
      · rintro ⟨⟩
      · rintro ⟨⟨huse' | hprobe', -⟩, -⟩
        · exact absurd huse' huse
        · rw [hprobe'] at hprobe
          cases hprobe
    · rw [ih, skip_advance, and_assoc]
      exact (and_iff_right (.inr (Bool.eq_false_iff.mpr hprobe))).symm

end PortPool

end Fosipcore
