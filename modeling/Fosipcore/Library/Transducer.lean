import Mathlib.Data.List.Basic

/-!
# Transducers

A transducer reads inputs one at a time, keeps a state and emits a list of outputs for every
input. A run collects the outputs in order. What the outputs of the steps decode to, under an
invariant of the states, is what those of a run decode to.

## Main definitions

* `run step s is`: the outputs and the final state of a run
* `observed step spec`: the machine with other outputs
* `traced f`: the machine that emits every input with its result

## Main results

* `run_append`: runs compose
* `run_observed`: outputs that are decoded step by step are decoded in a run
* `run_eq_flatten_traced`: the outputs of a run, input by input
* `run_traced_filter`: inputs that leave the state alone can be left out
-/

namespace Transducer

variable {σ ι ω : Type*} (step : σ → ι → List ω × σ)

/-- The outputs of a run, in order, and the state it ends in. -/
def run : σ → List ι → List ω × σ
  | s, [] => ([], s)
  | s, i :: is => ((step s i).1 ++ (run (step s i).2 is).1, (run (step s i).2 is).2)

@[simp] theorem run_nil (s : σ) : run step s [] = ([], s) := rfl

theorem run_cons (s : σ) (i : ι) (is : List ι) :
    run step s (i :: is) =
      ((step s i).1 ++ (run step (step s i).2 is).1, (run step (step s i).2 is).2) := rfl

/-- **Runs compose.** -/
theorem run_append (s : σ) (is js : List ι) :
    run step s (is ++ js) =
      ((run step s is).1 ++ (run step (run step s is).2 js).1,
        (run step (run step s is).2 js).2) := by
  induction is generalizing s with
  | nil => rfl
  | cons i is ih => simp only [List.cons_append, run_cons, ih, List.append_assoc]

variable {step}

/-- The machine that emits something else on the same inputs. -/
def observed {φ : Type*} (step : σ → ι → List ω × σ) (spec : σ → ι → List φ) (s : σ) (i : ι) :
    List φ × σ :=
  (spec s i, (step s i).2)

/-- **Decoded outputs**: if the outputs of every step are encodings of values whose views are those
of the specification, so are the outputs of a run. -/
theorem run_observed {τ φ : Type*} {encode : τ → ω} {view : τ → φ} {spec : σ → ι → List φ}
    {I : σ → Prop} {A : ι → Prop}
    (hstep : ∀ s i, I s → A i → I (step s i).2 ∧
      ∃ ts : List τ, ts.map encode = (step s i).1 ∧ ts.map view = spec s i)
    {s : σ} (hs : I s) {is : List ι} (his : ∀ i ∈ is, A i) :
    ∃ ts : List τ, ts.map encode = (run step s is).1 ∧
      ts.map view = (run (observed step spec) s is).1 := by
  induction is generalizing s with
  | nil => exact ⟨[], rfl, rfl⟩
  | cons i is ih =>
    obtain ⟨hs', ts, hts, hview⟩ := hstep s i hs (his i List.mem_cons_self)
    obtain ⟨ts', hts', hview'⟩ := ih hs' fun j hj => his j (List.mem_cons_of_mem i hj)
    refine ⟨ts ++ ts', ?_, ?_⟩
    · rw [List.map_append, hts, hts', run_cons]
    · rw [List.map_append, hview, hview', run_cons]
      rfl

/-! ## Traced runs -/

section Traced

variable {ρ : Type*} (f : σ → ι → ρ × σ)

/-- The machine `f` with every input next to its result. -/
def traced (s : σ) (i : ι) : List (ι × ρ) × σ := ([(i, (f s i).1)], (f s i).2)

theorem run_traced_cons (s : σ) (i : ι) (is : List ι) :
    run (traced f) s (i :: is) =
      ((i, (f s i).1) :: (run (traced f) (f s i).2 is).1, (run (traced f) (f s i).2 is).2) := rfl

theorem run_traced_snoc (s : σ) (is : List ι) (i : ι) :
    (run (traced f) s (is ++ [i])).1 =
      (run (traced f) s is).1 ++ [(i, (f (run (traced f) s is).2 i).1)] := by
  rw [run_append]
  rfl

theorem run_traced_state (s : σ) (is : List ι) :
    (run (traced step) s is).2 = (run step s is).2 := by
  induction is generalizing s with
  | nil => rfl
  | cons i is ih => rw [run_traced_cons, run_cons, ih]

/-- The outputs of a run are those of its inputs, one after another. -/
theorem run_eq_flatten_traced (s : σ) (is : List ι) :
    (run step s is).1 = ((run (traced step) s is).1.map Prod.snd).flatten := by
  induction is generalizing s with
  | nil => rfl
  | cons i is ih => rw [run_traced_cons, run_cons, List.map_cons, List.flatten_cons, ih]

variable {f}

/-- **Inputs that leave the state alone** can be left out of a run: the others get the same
results, and the run ends in the same state. -/
theorem run_traced_filter {A : ι → Bool} (h : ∀ s i, A i = false → (f s i).2 = s) (s : σ)
    (is : List ι) :
    run (traced f) s (is.filter A) =
      ((run (traced f) s is).1.filter (fun io => A io.1), (run (traced f) s is).2) := by
  induction is generalizing s with
  | nil => rfl
  | cons i is ih =>
    cases hi : A i with
    | true => simp only [List.filter_cons, run_traced_cons, hi, if_true, ih]
    | false =>
      rw [run_traced_cons, List.filter_cons, hi, if_neg (by decide), ih, h s i hi,
        List.filter_cons, hi, if_neg (by decide)]

end Traced

end Transducer
