import Fosipcore.Video.Ports
import Mathlib.Data.Finset.Image
import Mathlib.Data.Finset.Range

/-!
# The walk of the port pool

An allocation tries as many positions of the counter as the pool has ports. While the counter
does not wrap these are all the positions modulo the size of the pool. When the 16-bit counter
wraps in the middle of the walk some ports may be tried twice and others not at all, and the
allocation fails although one of them is free.

## Main definitions

* `PoolCall`, `PortPool.after`: the calls on a pool, and the pool after some of them
* `PortPool.ReportsExhaustion`: an allocation fails only if every port of the range is taken
* `PortPool.WalkCovers`: the walk visits every port of the range that is not in use

## Main results

* `PortPool.reports_exhaustion_iff`: in a run the pool reports exhaustion only when exhausted, if
  and only if its walks cover the range
* `PortPool.walkCovers_of_no_wrap`, `PortPool.walkCovers_of_dvd`: when they do
-/

namespace Fosipcore

/-- A call on a pool. The outcomes of the throwaway binds are those that the call happens to
see. -/
inductive PoolCall where
  | alloc (probe : ℕ → UInt16 → Bool)
  | release (port : UInt16)

namespace PortPool

def call (pool : PortPool) : PoolCall → PortPool
  | .alloc probe => (pool.alloc probe).2
  | .release port => pool.release port

/-- The pool over a range after some calls. -/
def after (base count : UInt16) (calls : List PoolCall) : PortPool :=
  calls.foldl call (new base count)

/-- The ports of the range. -/
def InRange (pool : PortPool) (port : UInt16) : Prop :=
  pool.base.toNat ≤ port.toNat ∧ port.toNat < pool.base.toNat + pool.count.toNat

instance (pool : PortPool) (port : UInt16) : Decidable (pool.InRange port) :=
  inferInstanceAs (Decidable (_ ∧ _))

/-- **Exhaustion is reported only when the pool is exhausted**: whatever ports are occupied from
outside, an allocation fails only if every port of the range is in use or occupied. -/
def ReportsExhaustion (pool : PortPool) : Prop :=
  ∀ occupied : Finset UInt16, (pool.alloc fun _ port => decide (port ∉ occupied)).1 = none →
    ∀ port, pool.InRange port → port ∈ pool.inUse ∨ port ∈ occupied

/-- The positions of the counter in the next walk, modulo the size of the pool, reach every port
of the range that is not in use. -/
def WalkCovers (pool : PortPool) : Prop :=
  ∀ port, pool.InRange port → port ∉ pool.inUse → ∃ k < pool.count.toNat,
    pool.base.toNat + (pool.next.toNat + k) % 65536 % pool.count.toNat = port.toNat

/-! ## Calls keep the range -/

theorem allocLoop_range (probe : ℕ → UInt16 → Bool) (n : ℕ) (pool : PortPool) :
    (allocLoop probe n pool).2.base = pool.base ∧ (allocLoop probe n pool).2.count = pool.count := by
  induction n generalizing pool with
  | zero => exact ⟨rfl, rfl⟩
  | succ n ih =>
    rw [allocLoop]
    split_ifs
    · exact ih pool.advance
    · exact ⟨rfl, rfl⟩
    · exact ih pool.advance

theorem after_range (base count : UInt16) (calls : List PoolCall) :
    (after base count calls).base = base ∧
      (after base count calls).count = (new base count).count := by
  induction calls using List.reverseRecOn with
  | nil => exact ⟨rfl, rfl⟩
  | append_singleton calls c ih =>
    rw [after, List.foldl_append]
    cases c with
    | alloc probe =>
      have hloop := allocLoop_range probe (after base count calls).count.toNat
        (after base count calls)
      exact ⟨hloop.1.trans ih.1, hloop.2.trans ih.2⟩
    | release port => exact ih

/-! ## The candidates of a walk -/

theorem toNat_candidate_skip {pool : PortPool}
    (hrange : pool.base.toNat + pool.count.toNat ≤ 65536) (k : ℕ) :
    (pool.skip k).candidate.toNat =
      pool.base.toNat + (pool.next.toNat + k) % 65536 % pool.count.toNat := by
  have hmod := Nat.mod_lt ((pool.next.toNat + k) % 65536) pool.count_pos
  have hnext : (pool.skip k).next.toNat = (pool.next.toNat + k) % 65536 := by
    simp [skip, UInt16.toNat_add, UInt16.toNat_ofNat']
  rw [candidate, hnext]
  simp only [skip]
  rw [UInt16.toNat_ofNat']
  omega

/-- An allocation fails if and only if every candidate of its walk is in use or occupied. -/
theorem alloc_eq_none_iff (pool : PortPool) (occupied : Finset UInt16) :
    (pool.alloc fun _ port => decide (port ∉ occupied)).1 = none ↔
      ∀ k < pool.count.toNat,
        (pool.skip k).candidate ∈ pool.inUse ∨ (pool.skip k).candidate ∈ occupied := by
  have hexhausted : pool.Exhausted (fun _ port => decide (port ∉ occupied)) pool.count.toNat ↔
      ∀ k < pool.count.toNat,
        (pool.skip k).candidate ∈ pool.inUse ∨ (pool.skip k).candidate ∈ occupied := by
    simp only [Exhausted, decide_eq_false_iff_not, not_not]
  rw [← hexhausted]
  constructor
  · intro hnone
    exact (allocLoop_none_iff.mp (Prod.ext hnone rfl)).1
  · intro h
    exact congrArg Prod.fst (allocLoop_none_iff.mpr ⟨h, rfl⟩)

/-- **One allocation** reports exhaustion only when the pool is exhausted, whatever is occupied,
if and only if its walk covers the range. -/
theorem reportsExhaustion_iff {pool : PortPool}
    (hrange : pool.base.toNat + pool.count.toNat ≤ 65536) :
    pool.ReportsExhaustion ↔ pool.WalkCovers := by
  constructor
  · intro h port hport huse
    -- occupy the candidates of the walk, and nothing else
    have hnone := (alloc_eq_none_iff pool
      ((Finset.range pool.count.toNat).image fun k => (pool.skip k).candidate)).mpr
      fun k hk => Or.inr (Finset.mem_image_of_mem _ (Finset.mem_range.mpr hk))
    obtain ⟨k, hk, rfl⟩ := Finset.mem_image.mp ((h _ hnone port hport).resolve_left huse)
    exact ⟨k, Finset.mem_range.mp hk, (toNat_candidate_skip hrange k).symm⟩
  · intro h occupied hnone port hport
    by_cases huse : port ∈ pool.inUse
    · exact Or.inl huse
    · obtain ⟨k, hk, hvisit⟩ := h port hport huse
      have hport : (pool.skip k).candidate = port := by
        rw [← UInt16.toNat_inj, toNat_candidate_skip hrange, hvisit]
      rw [← hport]
      exact (alloc_eq_none_iff pool occupied).mp hnone k hk

/-- **The pool reports exhaustion only when exhausted** throughout a run, if and only if every walk
of the run covers the range. -/
theorem reports_exhaustion_iff {base count : UInt16}
    (hrange : base.toNat + (new base count).count.toNat ≤ 65536) (calls : List PoolCall) :
    (∀ before, before <+: calls → (after base count before).ReportsExhaustion) ↔
      ∀ before, before <+: calls → (after base count before).WalkCovers := by
  refine forall_congr' fun before => imp_congr_right fun _ => reportsExhaustion_iff ?_
  obtain ⟨hbase, hcount⟩ := after_range base count before
  rwa [hbase, hcount]

/-! ## When the walk covers the range -/

/-- Consecutive numbers reach every remainder. -/
theorem exists_add_mod (n : ℕ) {c j : ℕ} (hj : j < c) : ∃ k < c, (n + k) % c = j := by
  have hn := Nat.mod_lt n (Nat.zero_lt_of_lt hj)
  refine ⟨(j + (c - n % c)) % c, Nat.mod_lt _ (Nat.zero_lt_of_lt hj), ?_⟩
  rw [Nat.add_mod_mod, ← Nat.mod_add_mod, show n % c + (j + (c - n % c)) = j + c by omega,
    Nat.add_mod_right, Nat.mod_eq_of_lt hj]

/-- A wrap of the counter does not change the positions of the walk. -/
theorem walkCovers_of_mod {pool : PortPool}
    (h : ∀ k < pool.count.toNat, (pool.next.toNat + k) % 65536 % pool.count.toNat =
      (pool.next.toNat + k) % pool.count.toNat) : pool.WalkCovers := by
  rintro port ⟨hlow, hhigh⟩ -
  obtain ⟨k, hk, hmod⟩ := exists_add_mod pool.next.toNat
    (show port.toNat - pool.base.toNat < pool.count.toNat by omega)
  refine ⟨k, hk, ?_⟩
  rw [h k hk, hmod]
  omega

/-- The counter does not wrap within the walk. -/
theorem walkCovers_of_no_wrap {pool : PortPool}
    (h : pool.next.toNat + pool.count.toNat ≤ 65536) : pool.WalkCovers := by
  refine walkCovers_of_mod fun k hk => ?_
  rw [Nat.mod_eq_of_lt (by omega : pool.next.toNat + k < 65536)]

/-- The size of the pool divides the number of positions, so that wrapping does not matter. -/
theorem walkCovers_of_dvd {pool : PortPool} (h : pool.count.toNat ∣ 65536) :
    pool.WalkCovers :=
  walkCovers_of_mod fun _ _ => Nat.mod_mod_of_dvd _ h

/-! ## Walks that wrap around -/

theorem skip_skip (pool : PortPool) (a b : ℕ) : (pool.skip a).skip b = pool.skip (a + b) := by
  simp only [skip, UInt16.ofNat_add, UInt16.add_assoc]

/-- Allocations that find every port occupied only move the counter. -/
theorem foldl_occupied (pool : PortPool) (n : ℕ) :
    (List.replicate n (.alloc fun _ _ => false)).foldl call pool =
      pool.skip (n * pool.count.toNat) := by
  induction n with
  | zero => rw [Nat.zero_mul, skip_zero]; rfl
  | succ n ih =>
    rw [List.replicate_succ', List.foldl_append, ih, Nat.succ_mul, ← skip_skip]
    exact congrArg Prod.snd (allocLoop_none_iff.mpr ⟨fun _ _ => Or.inr rfl, rfl⟩)

/-- Two of four ports are handed out, and then every port is found occupied until the counter is at
65534. -/
def beforeWrap : List PoolCall :=
  List.replicate 2 (.alloc fun _ _ => true) ++ List.replicate 16383 (.alloc fun _ _ => false)

/-- The next walk wraps around, and hands out the last port; then the first one is released. -/
def wrappingCalls : List PoolCall :=
  beforeWrap ++ [.alloc fun _ port => decide (port = 20003), .release 20000]

/-- The walk of four ports survives the wrap of the counter. -/
theorem reports_exhaustion_wrapping :
    (after 20000 4 beforeWrap).next = 65534 ∧
      (after 20000 4 beforeWrap).ReportsExhaustion ∧
      (after 20000 4 wrappingCalls).inUse = {20001, 20003} ∧
      (after 20000 4 wrappingCalls).ReportsExhaustion := by
  have hwrap : after 20000 4 beforeWrap =
      (after 20000 4 (List.replicate 2 (.alloc fun _ _ => true))).skip (16383 * 4) := by
    rw [beforeWrap, after, List.foldl_append, foldl_occupied]
    rfl
  have hreports : ∀ before, before <+: wrappingCalls →
      (after 20000 4 before).ReportsExhaustion := by
    refine (reports_exhaustion_iff (by decide) wrappingCalls).mpr fun before _ => ?_
    have hcount : (after 20000 4 before).count = 4 := (after_range 20000 4 before).2
    apply walkCovers_of_dvd
    rw [hcount]
    decide
  refine ⟨?_, hreports _ (List.prefix_append _ _), ?_, hreports _ List.prefix_rfl⟩
  · rw [hwrap]
    decide
  · rw [wrappingCalls, after, List.foldl_append, ← after, hwrap]
    decide +kernel

/-- A pool of three ports after 21845 failed allocations: the next walk tries the first port twice
and the third one not at all. -/
theorem not_reports_exhaustion :
    ¬ (after 20000 3 (List.replicate 21845 (.alloc fun _ _ => false))).ReportsExhaustion := by
  rw [after, foldl_occupied, reportsExhaustion_iff (by decide)]
  intro h
  obtain ⟨k, hk, hvisit⟩ := h 20002 (by decide) (by decide)
  have hk : k < 3 := hk
  have hvisit : 20000 + (65535 + k) % 65536 % 3 = 20002 := hvisit
  -- the counter is at 65535, then at 0 and 1
  obtain rfl | rfl | rfl : k = 0 ∨ k = 1 ∨ k = 2 := by omega
  · cases hvisit
  · cases hvisit
  · cases hvisit

end PortPool

end Fosipcore
