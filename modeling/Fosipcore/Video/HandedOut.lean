import Fosipcore.Video.PortWalk
import Mathlib.Data.Finset.Card

/-!
# The ports handed out

The ports that are handed out and not released are distinct, and they are those in use, however
often the counter and the range wrap. They are within the range that is reported if the range does not
reach the end of the port space and does not contain port 0, which every bind succeeds on.

## Main definitions

* `PortPool.range`: the range that is reported
* `PortPool.Reaches`: the pool of a run, and the ports outstanding

## Main results

* `PortPool.allocLoop_some`: a port that is handed out is a candidate that the bind succeeds on
* `PortPool.in_range_iff`: when every port is within the range
* `PortPool.outstanding_ports`: the outstanding ports and those in use
-/

namespace Fosipcore

namespace PortPool

/-- The `[first, last]` ports this pool may hand out. The addition saturates. -/
def range (pool : PortPool) : UInt16 × UInt16 :=
  (pool.base, .ofNat (min 65535 (pool.base.toNat + (pool.count.toNat - 1))))

/-- Number of ports currently handed out. -/
def inUseCount (pool : PortPool) : ℕ := pool.inUse.card

/-! ## Candidates -/

/-- **A port that is handed out** is one of the candidates, and the bind on it succeeds. -/
theorem allocLoop_some {probe : ℕ → UInt16 → Bool} {n : ℕ} {pool : PortPool} {port : UInt16}
    (h : (allocLoop probe n pool).1 = some port) :
    ∃ k < n, port = (pool.skip k).candidate ∧ probe (n - 1 - k) port = true := by
  induction n generalizing pool with
  | zero => cases h
  | succ n ih =>
    have hlater : (allocLoop probe n pool.advance).1 = some port →
        ∃ k < n + 1, port = (pool.skip k).candidate ∧ probe (n + 1 - 1 - k) port = true := by
      intro hlater
      obtain ⟨k, hk, hport, hprobe⟩ := ih hlater
      refine ⟨k + 1, by omega, ?_, ?_⟩
      · rwa [← skip_advance]
      · rwa [show n + 1 - 1 - (k + 1) = n - 1 - k by omega]
    rw [allocLoop] at h
    split_ifs at h with huse hprobe
    · exact hlater h
    · obtain rfl := Option.some.inj h
      exact ⟨0, Nat.succ_pos n, by rw [skip_zero], hprobe⟩
    · exact hlater h

theorem toNat_candidate (pool : PortPool) :
    pool.candidate.toNat = (pool.base.toNat + pool.next.toNat % pool.count.toNat) % 65536 := by
  rw [candidate, UInt16.toNat_ofNat']
  omega

theorem toNat_next_skip (pool : PortPool) (k : ℕ) :
    (pool.skip k).next.toNat = (pool.next.toNat + k) % 65536 := by
  simp [skip, UInt16.toNat_add, UInt16.toNat_ofNat']

/-- The number of candidates. -/
theorem count_new (base count : UInt16) : (new base count).count.toNat = max count.toNat 1 := by
  by_cases h : count = 0
  · subst h
    rfl
  · have hcount : (new base count).count = count := if_neg h
    have hne : count.toNat ≠ 0 := fun hzero => h (UInt16.toNat_inj.mp hzero)
    rw [hcount]
    omega

/-! ## The range -/

/-- A fresh pool comes to port 0, if the range begins there or ends behind the port space. -/
theorem exists_candidate_zero {base count : UInt16}
    (h : ¬ (0 < base.toNat ∧ base.toNat + max count.toNat 1 ≤ 65536)) :
    ∃ k < (new base count).count.toNat, ((new base count).skip k).candidate = 0 := by
  have hbase := base.toNat_lt
  have hcount := (new base count).count.toNat_lt
  have hpos := (new base count).count_pos
  rw [← count_new base count] at h
  refine ⟨(65536 - base.toNat) % 65536, by omega, UInt16.toNat_inj.mp ?_⟩
  rw [toNat_candidate, toNat_next_skip]
  change (base.toNat + (0 + (65536 - base.toNat) % 65536) % 65536 %
    (new base count).count.toNat) % 65536 = 0
  rw [Nat.zero_add, Nat.mod_mod, Nat.mod_eq_of_lt (by omega : _ < (new base count).count.toNat)]
  omega

/-- A candidate that is not in use is handed out, if the bind succeeds on it alone. -/
theorem alloc_only {pool : PortPool} {k : ℕ} (hk : k < pool.count.toNat)
    (hfree : (pool.skip k).candidate ∉ pool.inUse) :
    (pool.alloc fun _ port => decide (port = (pool.skip k).candidate)).1 =
      some (pool.skip k).candidate := by
  cases halloc : (pool.alloc fun _ port => decide (port = (pool.skip k).candidate)).1 with
  | none =>
    have hexhausted := (allocLoop_none_iff.mp (Prod.ext halloc rfl)).1
    rcases hexhausted k hk with huse | hprobe
    · exact absurd huse hfree
    · exact absurd (decide_eq_true rfl) (ne_true_of_eq_false hprobe)
  | some port =>
    obtain ⟨-, -, -, hprobe⟩ := allocLoop_some halloc
    rw [of_decide_eq_true hprobe]

/-- A port is within a range that ends within the port space. -/
theorem candidate_le (pool : PortPool) (hend : pool.base.toNat + pool.count.toNat ≤ 65536) :
    pool.base ≤ pool.candidate ∧ pool.candidate ≤ pool.range.2 := by
  have hmod := Nat.mod_lt pool.next.toNat pool.count_pos
  have hlast : pool.range.2.toNat = pool.base.toNat + (pool.count.toNat - 1) := by
    rw [range, UInt16.toNat_ofNat']
    omega
  rw [UInt16.le_iff_toNat_le, UInt16.le_iff_toNat_le, hlast, toNat_candidate]
  omega

/-- **Every port is within the range, and not 0**, in every run, if and only if the range begins
behind 0 and ends within the port space. -/
theorem in_range_iff (base count : UInt16) :
    (∀ (calls : List PoolCall) (probe : ℕ → UInt16 → Bool) (port : UInt16),
      ((after base count calls).alloc probe).1 = some port →
        (after base count calls).range.1 ≤ port ∧ port ≤ (after base count calls).range.2 ∧
          port ≠ 0) ↔
      0 < base.toNat ∧ base.toNat + max count.toNat 1 ≤ 65536 := by
  constructor
  · intro h
    by_contra hnot
    -- port 0 is a candidate of a fresh pool, and the others are occupied
    obtain ⟨k, hk, hzero⟩ := exists_candidate_zero hnot
    exact (h [] _ _ (alloc_only hk (Finset.notMem_empty _))).2.2 hzero
  · rintro ⟨hbase, hend⟩ calls probe port hport
    obtain ⟨hbase', hcount'⟩ := after_range base count calls
    generalize after base count calls = pool at hport hbase' hcount' ⊢
    obtain ⟨k, -, rfl, -⟩ := allocLoop_some hport
    rw [← count_new base count, ← hcount', ← hbase'] at hend
    obtain ⟨hfirst, hlast⟩ := candidate_le (pool.skip k) hend
    refine ⟨hfirst, hlast, fun hzero => ?_⟩
    rw [hzero, UInt16.le_iff_toNat_le] at hfirst
    change pool.base.toNat ≤ 0 at hfirst
    rw [hbase'] at hfirst
    omega

/-- Port 0 is handed out behind the last port of the port space, if the others are occupied. -/
theorem not_in_range :
    ¬ ∀ (base count : UInt16) (calls : List PoolCall) (probe : ℕ → UInt16 → Bool) (port : UInt16),
      ((after base count calls).alloc probe).1 = some port →
        (after base count calls).range.1 ≤ port ∧ port ≤ (after base count calls).range.2 ∧
          port ≠ 0 := by
  intro h
  exact (h 65530 10 [] (fun _ port => decide (port = 0)) 0 (by decide)).2.2 rfl

/-! ## The ports outstanding -/

/-- **The pool of a run, and the ports outstanding**: those that were handed out and not released.
Only these are released. -/
inductive Reaches (base count : UInt16) : PortPool → List UInt16 → Prop
  | new : Reaches base count (new base count) []
  | alloc {pool : PortPool} {outstanding : List UInt16} (probe : ℕ → UInt16 → Bool) :
      Reaches base count pool outstanding →
      Reaches base count (pool.alloc probe).2 (outstanding ++ (pool.alloc probe).1.toList)
  | release {pool : PortPool} {outstanding : List UInt16} {port : UInt16} :
      Reaches base count pool outstanding → port ∈ outstanding →
      Reaches base count (pool.release port) (outstanding.erase port)

/-- The candidates of a range. -/
def candidates (base count : UInt16) : Finset UInt16 :=
  (Finset.range (max count.toNat 1)).image fun k => .ofNat ((base.toNat + k) % 65536)

/-- **What holds of the ports in use.** -/
structure Accounts (base count : UInt16) (pool : PortPool) (outstanding : List UInt16) : Prop where
  base_eq : pool.base = base
  count_eq : pool.count.toNat = max count.toNat 1
  nodup : outstanding.Nodup
  inUse_eq : pool.inUse = outstanding.toFinset
  candidates : pool.inUse ⊆ candidates base count

variable {base count : UInt16} {pool : PortPool} {outstanding : List UInt16}

theorem candidate_mem (hbase : pool.base = base) (hcount : pool.count.toNat = max count.toNat 1) :
    pool.candidate ∈ PortPool.candidates base count := by
  refine Finset.mem_image.mpr ⟨pool.next.toNat % pool.count.toNat, ?_, ?_⟩
  · rw [Finset.mem_range, ← hcount]
    exact Nat.mod_lt _ pool.count_pos
  · rw [candidate, hbase]

/-- What an allocation does to the ports in use. -/
theorem alloc_cases (pool : PortPool) (probe : ℕ → UInt16 → Bool) :
    ((pool.alloc probe).1 = none ∧ (pool.alloc probe).2.inUse = pool.inUse) ∨
      ∃ port, (pool.alloc probe).1 = some port ∧ port ∉ pool.inUse ∧
        (pool.alloc probe).2.inUse = insert port pool.inUse := by
  cases halloc : pool.alloc probe with
  | mk result pool' =>
    cases result with
    | none => exact Or.inl ⟨rfl, alloc_none halloc⟩
    | some port =>
      obtain ⟨hfree, huse⟩ := alloc_some halloc
      exact Or.inr ⟨port, rfl, hfree, huse⟩

theorem Accounts.alloc (h : Accounts base count pool outstanding) (probe : ℕ → UInt16 → Bool) :
    Accounts base count (pool.alloc probe).2 (outstanding ++ (pool.alloc probe).1.toList) := by
  obtain ⟨hbase, hcount⟩ := allocLoop_range probe pool.count.toNat pool
  have hbase' : (pool.alloc probe).2.base = base := hbase.trans h.base_eq
  have hcount' : (pool.alloc probe).2.count.toNat = max count.toNat 1 :=
    (congrArg UInt16.toNat hcount).trans h.count_eq
  rcases alloc_cases pool probe with ⟨hnone, huse⟩ | ⟨port, hsome, hfree, huse⟩
  · rw [hnone]
    refine ⟨hbase', hcount', ?_, ?_, ?_⟩
    · rw [Option.toList_none, List.append_nil]
      exact h.nodup
    · rw [Option.toList_none, List.append_nil, huse, h.inUse_eq]
    · rw [huse]
      exact h.candidates
  · -- the port is not outstanding, since it was not in use
    have hnew : port ∉ outstanding := by
      rwa [h.inUse_eq, List.mem_toFinset] at hfree
    obtain ⟨k, -, hport, -⟩ := allocLoop_some hsome
    rw [hsome, Option.toList_some]
    refine ⟨hbase', hcount', ?_, ?_, ?_⟩
    · exact h.nodup.append (List.nodup_singleton port) (by simpa using hnew)
    · rw [huse, h.inUse_eq, List.toFinset_append]
      ext p
      simp
    · have hskip : (pool.skip k).candidate ∈ PortPool.candidates base count :=
        candidate_mem h.base_eq h.count_eq
      rw [huse, Finset.insert_subset_iff, hport]
      exact ⟨hskip, h.candidates⟩

theorem Accounts.release (h : Accounts base count pool outstanding) {port : UInt16} :
    Accounts base count (pool.release port) (outstanding.erase port) where
  base_eq := h.base_eq
  count_eq := h.count_eq
  nodup := h.nodup.erase port
  inUse_eq := by
    ext p
    rw [PortPool.release, h.inUse_eq, Finset.mem_erase, List.mem_toFinset, List.mem_toFinset,
      h.nodup.mem_erase_iff]
  candidates := (Finset.erase_subset port pool.inUse).trans h.candidates

/-- **The ports in use are accounted for** in every run. -/
theorem Reaches.accounts (h : Reaches base count pool outstanding) :
    Accounts base count pool outstanding := by
  induction h with
  | new => exact ⟨rfl, count_new base count, List.nodup_nil, rfl, Finset.empty_subset _⟩
  | alloc probe _ ih => exact ih.alloc probe
  | release _ _ ih => exact ih.release

/-- **The outstanding ports** are distinct, they are those in use, and not more than the range has.
An allocation that fails leaves them alone, and another one adds the port that it returns. -/
theorem outstanding_ports (h : Reaches base count pool outstanding) :
    outstanding.Nodup ∧ (∀ port, port ∈ pool.inUse ↔ port ∈ outstanding) ∧
      pool.inUseCount ≤ min (max count.toNat 1) 65536 ∧
      ∀ probe : ℕ → UInt16 → Bool,
        ((pool.alloc probe).1 = none → (pool.alloc probe).2.inUse = pool.inUse) ∧
          ∀ port, (pool.alloc probe).1 = some port →
            port ∉ pool.inUse ∧ (pool.alloc probe).2.inUse = insert port pool.inUse := by
  have haccounts := h.accounts
  refine ⟨haccounts.nodup, fun port => ?_, ?_, fun probe => ⟨fun hnone => ?_, fun port hsome => ?_⟩⟩
  · rw [haccounts.inUse_eq, List.mem_toFinset]
  · have hcard : pool.inUseCount ≤ max count.toNat 1 :=
      calc pool.inUseCount ≤ (candidates base count).card := Finset.card_le_card haccounts.candidates
        _ ≤ (Finset.range (max count.toNat 1)).card := Finset.card_image_le
        _ = max count.toNat 1 := Finset.card_range _
    have hlt := count.toNat_lt
    omega
  · exact alloc_none (Prod.ext hnone rfl)
  · exact alloc_some (Prod.ext hsome rfl)

/-- Two ports are handed out, the second bind having failed on one between them; the first one is
released, and then every bind fails. -/
def busyPool : PortPool :=
  ((((new 20000 3).alloc fun _ _ => true).2.alloc fun _ port => decide (port ≠ 20001)).2.release
    20000 |>.alloc fun _ _ => false).2

theorem reaches_busyPool : Reaches 20000 3 busyPool [20002] :=
  .alloc (fun _ _ => false) (.release (.alloc (fun _ port => decide (port ≠ 20001))
    (.alloc (fun _ _ => true) .new)) (by decide : (20000 : UInt16) ∈ [20000, 20002]))

/-- One port of the pool is in use, and the next allocation that finds a free port adds one. -/
theorem outstanding_ports_busy :
    (∀ port, port ∈ busyPool.inUse ↔ port ∈ [(20002 : UInt16)]) ∧
      20001 ∉ busyPool.inUse ∧
      (busyPool.alloc fun _ port => decide (port = 20001)).2.inUse = insert 20001 busyPool.inUse := by
  obtain ⟨-, hinUse, -, halloc⟩ := outstanding_ports reaches_busyPool
  have hadded := (halloc fun _ port => decide (port = 20001)).2 20001 (by decide)
  exact ⟨hinUse, hadded⟩

/-- A pool of no ports hands out one. -/
theorem not_inUseCount_le :
    ¬ ∀ (base count : UInt16) (pool : PortPool) (outstanding : List UInt16),
      Reaches base count pool outstanding → pool.inUseCount ≤ min count.toNat 65536 := by
  intro h
  exact absurd (h 20000 0 _ _ (.alloc (fun _ _ => true) .new)) (by decide)

end PortPool

end Fosipcore
