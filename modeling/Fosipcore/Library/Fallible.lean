import Mathlib.Init

/-!
# Fallible programs with a state

Triples for programs that read and change a state and return a value or an error. A program that
fails keeps the state it has reached, so a triple has two postconditions: one for the value that is
returned, and one for the error.

A caller can go on after some of the errors, in the state in which the program has failed.

## Main definitions

* `Triple P x Q E`: from `P`, the program returns with `Q` or fails with `E`
* `final x s`: the state in which the program ends
* `attempt p x`: the program `x`, of which the errors that meet `p` are handled
* `Keeps I x`: an invariant, whether the program returns or fails

## Main results

* `Triple.bind`, `Triple.consequence`, `Triple.attempt`: the rules of composition
* `Keeps.final`: the invariant rule
* `bind_of_ok`, `bind_of_error`, `attempt_of_ok`, `attempt_of_error`: single runs
-/

namespace Fallible

variable {ε σ α β : Type}

/-- From a state with `P`, the program returns a value and a state with `Q`, or an error and a state
with `E`. -/
def Triple (P : σ → Prop) (x : EStateM ε σ α) (Q : α → σ → Prop) (E : ε → σ → Prop) : Prop :=
  ∀ s, P s → match x s with
    | .ok a s' => Q a s'
    | .error e s' => E e s'

/-- Handle the errors that meet `p`. The state stays as the program has left it. -/
def attempt (p : ε → Bool) (x : EStateM ε σ α) : EStateM ε σ (Option α) := fun s =>
  match x s with
  | .ok a s' => .ok (some a) s'
  | .error e s' => if p e then .ok none s' else .error e s'

/-- The state in which the program returns or fails. -/
def final (x : EStateM ε σ α) (s : σ) : σ :=
  match x s with
  | .ok _ s' => s'
  | .error _ s' => s'

variable {P P' : σ → Prop} {x : EStateM ε σ α} {Q Q' : α → σ → Prop} {E E' : ε → σ → Prop}

namespace Triple

theorem ok {s s' : σ} {a : α} (h : Triple P x Q E) (hs : P s) (hx : x s = .ok a s') : Q a s' := by
  have hpost := h s hs
  rwa [hx] at hpost

theorem pure (a : α) : Triple (Q a) (Pure.pure a : EStateM ε σ α) Q E := fun _ hs => hs

theorem throw (e : ε) : Triple (E e) (MonadExcept.throw e : EStateM ε σ α) Q E := fun _ hs => hs

/-- **Sequential composition**: the postcondition of the first program is the precondition of the
second, and both fail alike. -/
theorem bind {f : α → EStateM ε σ β} {R : β → σ → Prop} (hx : Triple P x Q E)
    (hf : ∀ a, Triple (Q a) (f a) R E) : Triple P (x >>= f) R E := by
  intro s hs
  have hpost := hx s hs
  simp only [Bind.bind, EStateM.bind]
  cases hrun : x s with
  | ok a s' =>
    rw [hrun] at hpost
    exact hf a s' hpost
  | error e s' =>
    rw [hrun] at hpost
    exact hpost

/-- **Consequence**: a triple for a stronger precondition and weaker postconditions. -/
theorem consequence (h : Triple P x Q E) (hP : ∀ s, P' s → P s) (hQ : ∀ a s, Q a s → Q' a s)
    (hE : ∀ e s, E e s → E' e s) : Triple P' x Q' E' := by
  intro s hs
  have hpost := h s (hP s hs)
  cases hrun : x s with
  | ok a s' =>
    rw [hrun] at hpost
    exact hQ a s' hpost
  | error e s' =>
    rw [hrun] at hpost
    exact hE e s' hpost

theorem pre (h : Triple P x Q E) (hP : ∀ s, P' s → P s) : Triple P' x Q E :=
  h.consequence hP (fun _ _ => id) fun _ _ => id

theorem weaken (h : Triple P x Q E) (hQ : ∀ a s, Q a s → Q' a s)
    (hE : ∀ e s, E e s → E' e s) : Triple P x Q' E' :=
  h.consequence (fun _ => id) hQ hE

theorem post (h : Triple P x Q E) (hQ : ∀ a s, Q a s → Q' a s) : Triple P x Q' E :=
  h.weaken hQ fun _ _ => id

/-- A weaker postcondition for the errors only. -/
theorem fails (h : Triple P x Q E) (hE : ∀ e s, E e s → E' e s) : Triple P x Q E' :=
  h.weaken (fun _ _ => id) hE

/-- A triple that says nothing of the errors. -/
theorem returns (h : Triple P x Q E) (hQ : ∀ a s, Q a s → Q' a s) :
    Triple P x Q' fun _ _ => True :=
  h.weaken hQ fun _ _ _ => trivial

/-- What holds whether or not the state is changed may be taken from the precondition. -/
theorem of_pre {φ : Prop} (h : φ → Triple P x Q E) : Triple (fun s => φ ∧ P s) x Q E :=
  fun s hs => h hs.1 s hs.2

/-- **An attempt** returns a value as the program does, or none where an error was handled. -/
theorem attempt {p : ε → Bool} {R : Option α → σ → Prop} (h : Triple P x (fun a => R (some a)) E)
    (hnone : ∀ e s, p e = true → E e s → R none s)
    (herror : ∀ e s, p e = false → E e s → E' e s) : Triple P (Fallible.attempt p x) R E' := by
  intro s hs
  have hpost := h s hs
  simp only [Fallible.attempt]
  cases hrun : x s with
  | ok a s' =>
    rw [hrun] at hpost
    exact hpost
  | error e s' =>
    rw [hrun] at hpost
    cases hp : p e with
    | true =>
      simp only [hp, if_true]
      exact hnone e s' hp hpost
    | false =>
      simp only [hp, Bool.false_eq_true, if_false]
      exact herror e s' hp hpost

/-- **Going on after an attempt**: with the value, or from the state in which an error was handled. -/
theorem attempt_bind {p : ε → Bool} {f : Option α → EStateM ε σ β} {R : β → σ → Prop}
    (h : Triple P x Q E) (hsome : ∀ a, Triple (Q a) (f (some a)) R E')
    (hnone : ∀ e, p e = true → Triple (E e) (f none) R E')
    (herror : ∀ e s, p e = false → E e s → E' e s) :
    Triple P (Fallible.attempt p x >>= f) R E' := by
  have hattempt : Triple P (Fallible.attempt p x)
      (fun a? s => a?.elim (∃ e, p e = true ∧ E e s) fun a => Q a s) E' :=
    Triple.attempt h (fun e s hp hs => ⟨e, hp, hs⟩) herror
  -- the errors that are not handled are those of the whole
  refine hattempt.bind fun a? => ?_
  cases a? with
  | some a => exact hsome a
  | none =>
    rintro s ⟨e, hp, hs⟩
    exact hnone e hp s hs

/-- **Two triples** of one program hold together. -/
theorem and (h : Triple P x Q E) (h' : Triple P' x Q' E') :
    Triple (fun s => P s ∧ P' s) x (fun a s => Q a s ∧ Q' a s) fun e s => E e s ∧ E' e s := by
  intro s hs
  have hpost := h s hs.1
  have hpost' := h' s hs.2
  cases hrun : x s with
  | ok a s' =>
    rw [hrun] at hpost hpost'
    exact ⟨hpost, hpost'⟩
  | error e s' =>
    rw [hrun] at hpost hpost'
    exact ⟨hpost, hpost'⟩

/-- What holds whether the program returns or fails holds in the state in which it ends. -/
theorem final {I : σ → Prop} {s : σ} (h : Triple P x (fun _ => I) fun _ => I) (hs : P s) :
    I (final x s) := by
  have hpost := h s hs
  rw [Fallible.final]
  cases hrun : x s with
  | ok a s' =>
    rw [hrun] at hpost
    exact hpost
  | error e s' =>
    rw [hrun] at hpost
    exact hpost

end Triple

/-! ## Runs -/

section Runs

variable {f : α → EStateM ε σ β} {s s' : σ} {a : α} {e : ε} {p : ε → Bool}

theorem bind_of_ok (h : x s = .ok a s') : (x >>= f) s = f a s' := by
  simp only [Bind.bind, EStateM.bind, h]

theorem bind_of_error (h : x s = .error e s') : (x >>= f) s = .error e s' := by
  simp only [Bind.bind, EStateM.bind, h]

theorem attempt_of_ok (h : x s = .ok a s') : Fallible.attempt p x s = .ok (some a) s' := by
  simp only [Fallible.attempt, h]

theorem attempt_of_error (h : x s = .error e s') (hp : p e = true) :
    Fallible.attempt p x s = .ok none s' := by
  simp only [Fallible.attempt, h, hp, if_true]

end Runs

/-! ## Invariants -/

/-- The program keeps `I`, whether it returns or fails. -/
def Keeps (I : σ → Prop) (x : EStateM ε σ α) : Prop := Triple I x (fun _ => I) fun _ => I

namespace Keeps

variable {I : σ → Prop}

theorem bind {f : α → EStateM ε σ β} (hx : Keeps I x) (hf : ∀ a, Keeps I (f a)) :
    Keeps I (x >>= f) :=
  Triple.bind hx hf

theorem pure (a : α) : Keeps I (Pure.pure a : EStateM ε σ α) := fun _ hs => hs

theorem throw (e : ε) : Keeps I (MonadExcept.throw e : EStateM ε σ α) := fun _ hs => hs

theorem attempt {p : ε → Bool} (h : Keeps I x) : Keeps I (attempt p x) :=
  Triple.attempt h (fun _ _ _ => id) fun _ _ _ => id

/-- **The invariant rule**: the state in which the program ends has the invariant. -/
theorem final {s : σ} (h : Keeps I x) (hs : I s) : I (final x s) := Triple.final h hs

end Keeps

end Fallible
