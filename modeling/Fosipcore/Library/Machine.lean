import Mathlib.Data.Nat.Init
import Mathlib.Tactic.SplitIfs

/-!
# Guarded runs of a machine

A machine takes events one at a time; an event that is not enabled in a state has no successor.
A guard is a condition on an event and the state before it. A run is guarded when every one of
its steps meets the guard, and a machine without a guard is one whose guard always holds.

## Main definitions

* `Run step guard s es s'`: the events `es` lead from `s` to `s'`, every step guarded
* `exec step guard s es`: the state a guarded run ends in, computed

## Main results

* `Run.invariant`: what every guarded step preserves, a guarded run preserves
* `Run.exists_of_weight`: steps that take away from a weight come to an end
* `Run.countP_le_weight`: how many of them there can be in any run
* `Run.of_exec`: a computed run is a run
-/

namespace Machine

variable {σ ε : Type*}

/-- `Run step guard s es s'`: the events `es` lead from `s` to `s'`, and every step meets the
guard in the state before it. -/
inductive Run (step : σ → ε → Option σ) (guard : σ → ε → Prop) : σ → List ε → σ → Prop
  | nil (s : σ) : Run step guard s [] s
  | cons {s s' s'' : σ} {e : ε} {es : List ε} : guard s e → step s e = some s' →
      Run step guard s' es s'' → Run step guard s (e :: es) s''

/-- The guard of a machine without a guard. -/
def free (_ : σ) (_ : ε) : Prop := True

instance (s : σ) (e : ε) : Decidable (free s e) := inferInstanceAs (Decidable True)

/-- The state in which a guarded run ends, if there is one. -/
def exec (step : σ → ε → Option σ) (guard : σ → ε → Prop) [∀ s e, Decidable (guard s e)] :
    σ → List ε → Option σ
  | s, [] => some s
  | s, e :: es =>
    if guard s e then
      match step s e with
      | some s' => exec step guard s' es
      | none => none
    else none

variable {step : σ → ε → Option σ} {guard : σ → ε → Prop}

/-- **The run rule**: an invariant of the guarded steps is an invariant of the guarded runs. -/
theorem Run.invariant {I : σ → Prop}
    (hstep : ∀ s e s', I s → guard s e → step s e = some s' → I s') {s s' : σ} {es : List ε}
    (h : Run step guard s es s') (hs : I s) : I s' := by
  induction h with
  | nil => exact hs
  | cons hguard hnext _ ih => exact ih (hstep _ _ _ hs hguard hnext)

/-- Runs can be put one after the other. -/
theorem Run.append {s s' s'' : σ} {es es' : List ε} (h : Run step guard s es s')
    (h' : Run step guard s' es' s'') : Run step guard s (es ++ es') s'' := by
  induction h with
  | nil => exact h'
  | cons hguard hnext _ ih => exact .cons hguard hnext (ih h')

/-- **Progress**: where every state with `P` has `Q`, or a step by `A` to a state with `P` of less
weight, some of these steps lead to a state with `Q`, at most as many as the weight. -/
theorem Run.exists_of_weight {A : ε → Prop} {P Q : σ → Prop} (weight : σ → ℕ)
    (hprogress : ∀ s, P s → Q s ∨
      ∃ e s', A e ∧ guard s e ∧ step s e = some s' ∧ P s' ∧ weight s' < weight s)
    {s : σ} (hs : P s) :
    ∃ es s', (∀ e ∈ es, A e) ∧ es.length ≤ weight s ∧ Run step guard s es s' ∧ P s' ∧ Q s' := by
  induction hn : weight s using Nat.strong_induction_on generalizing s with
  | _ n ih =>
    rcases hprogress s hs with hdone | ⟨e, s₁, he, hguard, hstep, hs₁, hlt⟩
    · exact ⟨[], s, List.forall_mem_nil _, Nat.zero_le n, .nil s, hs, hdone⟩
    · obtain ⟨es, s', hes, hlength, hrun, hs', hdone⟩ := ih (weight s₁) (hn ▸ hlt) hs₁ rfl
      refine ⟨e :: es, s', List.forall_mem_cons.mpr ⟨he, hes⟩, ?_, .cons hguard hstep hrun, hs',
        hdone⟩
      rw [List.length_cons]
      omega

/-- **Boundedness**: where the steps that are counted take away from a weight, and the others do not
add to it, a run has at most as many of the former as the weight. -/
theorem Run.countP_le_weight {I : σ → Prop} {counted : ε → Bool} {weight : σ → ℕ}
    (hstep : ∀ s e s', I s → guard s e → step s e = some s' →
      I s' ∧ weight s' + (if counted e then 1 else 0) ≤ weight s)
    {s s' : σ} {es : List ε} (h : Run step guard s es s') (hs : I s) :
    es.countP counted + weight s' ≤ weight s := by
  induction h with
  | nil =>
    rw [List.countP_nil]
    exact Nat.le_of_eq (Nat.zero_add _)
  | cons hguard hnext _ ih =>
    obtain ⟨hs', hweight⟩ := hstep _ _ _ hs hguard hnext
    have hrest := ih hs'
    rw [List.countP_cons]
    omega

/-- **A computed run is a run.** -/
theorem Run.of_exec [∀ s e, Decidable (guard s e)] {es : List ε} :
    ∀ {s s' : σ}, exec step guard s es = some s' → Run step guard s es s' := by
  induction es with
  | nil =>
    intro s s' h
    obtain rfl := Option.some.inj h
    exact .nil s
  | cons e es ih =>
    intro s s' h
    rw [exec] at h
    split_ifs at h with hguard
    cases hnext : step s e with
    | none =>
      rw [hnext] at h
      cases h
    | some t =>
      rw [hnext] at h
      exact .cons hguard hnext (ih h)

/-- A computed run, of whose last state only some of the data is compared. -/
theorem Run.of_exec_map [∀ s e, Decidable (guard s e)] {α : Type*} {f : σ → α} {a : α} {s : σ}
    {es : List ε} (h : (exec step guard s es).map f = some a) :
    ∃ s', Run step guard s es s' ∧ f s' = a := by
  obtain ⟨s', hs', ha⟩ := Option.map_eq_some_iff.mp h
  exact ⟨s', .of_exec hs', ha⟩

end Machine
