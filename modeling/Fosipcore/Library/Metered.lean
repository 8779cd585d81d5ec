import Mathlib.Data.Nat.Notation

/-!
# Metered programs

A program that may fail, with the units that it has used: a program that fails has used what it has
used before. The meter does not change what the program returns.

## Main definitions

* `Metered α`: the value that is returned, if one is, and the units
* `ofOption`: a step that is free
* `map f`: what is returned, changed

## Main results

* `result_bind`: the values are those without the meter
* `used_bind`: the units of a composition
-/

/-- What a program returns, if it does, and what it has used. -/
structure Metered (α : Type*) where
  result : Option α
  used : ℕ

namespace Metered

universe u

variable {α β : Type u}

/-- A step that is free. -/
def ofOption (a? : Option α) : Metered α := ⟨a?, 0⟩

/-- Change what is returned. -/
def map (f : α → β) (x : Metered α) : Metered β := ⟨x.result.map f, x.used⟩

instance : Monad Metered where
  pure a := ofOption (some a)
  bind x f :=
    match x.result with
    | none => ⟨none, x.used⟩
    | some a => ⟨(f a).result, x.used + (f a).used⟩

@[simp] theorem result_ofOption (a? : Option α) : (ofOption a?).result = a? := rfl

@[simp] theorem used_ofOption (a? : Option α) : (ofOption a?).used = 0 := rfl

@[simp] theorem result_pure (a : α) : (pure a : Metered α).result = some a := rfl

@[simp] theorem used_pure (a : α) : (pure a : Metered α).used = 0 := rfl

/-- **The values** are those without the meter. -/
@[simp] theorem result_bind (x : Metered α) (f : α → Metered β) :
    (x >>= f).result = x.result.bind fun a => (f a).result := by
  simp only [bind]
  cases x.result with
  | none => rfl
  | some a => rfl

/-- **The units of a composition**: what the second program uses is added, if it is run. -/
theorem used_bind (x : Metered α) (f : α → Metered β) :
    (x >>= f).used = x.used + x.result.elim 0 fun a => (f a).used := by
  simp only [bind]
  cases x.result with
  | none => rfl
  | some a => rfl

/-- A continuation that is free. -/
theorem used_bind_free {x : Metered α} {f : α → Metered β} (h : ∀ a, (f a).used = 0) :
    (x >>= f).used = x.used := by
  rw [used_bind]
  cases x.result with
  | none => rfl
  | some a => exact congrArg (x.used + ·) (h a)

theorem bind_congr {x : Metered α} {f g : α → Metered β} (h : ∀ a, f a = g a) :
    x >>= f = x >>= g :=
  congrArg (x >>= ·) (funext h)

/-- What a composition returns is changed at its end. -/
theorem map_bind {γ : Type u} (x : Metered α) (f : α → Metered β) (g : β → γ) :
    (x >>= f).map g = x >>= fun a => (f a).map g := by
  simp only [bind]
  cases x.result with
  | none => rfl
  | some a => rfl

end Metered
