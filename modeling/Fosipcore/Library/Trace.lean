import Mathlib.Data.List.Induction

/-!
# Traces judged by their past

A property of a trace that says of each event what must have happened before it. Since a trace
only grows at its end, such a property is kept when the new events meet it.

A latch holds the first value that was offered since it was last cleared.

## Main definitions

* `Checked P trace`: every event of the trace is allowed by the events before it
* `latch sig trace`: the first value offered since the last clear

## Main results

* `checked_append`: the new events are judged with the whole past
* `latch_append_of_keep`: events that do not concern a latch leave it alone
-/

namespace Trace

variable {α β : Type*}

/-- Every event of the trace is allowed by the events before it. -/
def Checked (P : List α → α → Prop) (trace : List α) : Prop :=
  ∀ past e rest, trace = past ++ e :: rest → P past e

theorem Checked.nil {P : List α → α → Prop} : Checked P [] := by
  intro past e rest h
  cases past <;> cases h

/-- **Growing a trace**: the events that are added are judged with everything before them. -/
theorem checked_append {P : List α → α → Prop} {trace es : List α} :
    Checked P (trace ++ es) ↔ Checked P trace ∧ Checked (fun past => P (trace ++ past)) es := by
  constructor
  · intro h
    constructor
    · intro past e rest htrace
      apply h past e (rest ++ es)
      rw [htrace, List.append_assoc, List.cons_append]
    · intro past e rest hes
      apply h (trace ++ past) e rest
      rw [hes, List.append_assoc]
  · rintro ⟨htrace, hes⟩ past e rest h
    -- the split of the whole trace at `e` is one of the old trace or one of the new events
    rcases List.append_eq_append_iff.mp h with ⟨mid, rfl, h'⟩ | ⟨mid, rfl, h'⟩
    · exact hes mid e rest h'
    · cases mid with
      | nil =>
        rw [List.nil_append] at h'
        have hhead := hes [] e rest h'.symm
        rwa [List.append_nil, List.append_nil] at *
      | cons e' mid =>
        rw [List.cons_append] at h'
        obtain ⟨rfl, -⟩ := List.cons.inj h'
        exact htrace past e mid rfl

theorem checked_cons {P : List α → α → Prop} {e : α} {es : List α} :
    Checked P (e :: es) ↔ P [] e ∧ Checked (fun past => P (e :: past)) es := by
  constructor
  · intro h
    constructor
    · exact h [] e es rfl
    · intro past e' rest hes
      apply h (e :: past) e' rest
      rw [hes, List.cons_append]
  · rintro ⟨hhead, htail⟩ past e' rest h
    cases past with
    | nil =>
      obtain ⟨rfl, -⟩ := List.cons.inj h
      exact hhead
    | cons e'' past =>
      obtain ⟨rfl, htail'⟩ := List.cons.inj h
      exact htail past e' rest htail'

theorem checked_snoc {P : List α → α → Prop} {trace : List α} {e : α} :
    Checked P (trace ++ [e]) ↔ Checked P trace ∧ P trace e := by
  rw [checked_append, checked_cons, List.append_nil]
  exact and_congr_right fun _ => and_iff_left .nil

/-- Events that are allowed whatever came before them. -/
theorem Checked.of_forall {P : List α → α → Prop} {es : List α}
    (h : ∀ past, ∀ e ∈ es, P past e) : Checked P es := by
  rintro past e rest rfl
  apply h
  exact List.mem_append_right past List.mem_cons_self

/-- Whether every event is allowed can be decided, event by event. -/
instance decidableChecked (P : List α → α → Prop) [∀ past e, Decidable (P past e)] :
    ∀ trace, Decidable (Checked P trace)
  | [] => isTrue .nil
  | e :: es =>
    have := decidableChecked (fun past => P (e :: past)) es
    decidable_of_iff _ checked_cons.symm

/-! ## Latches -/

/-- What an event means to a latch. -/
inductive Signal (β : Type*) where
  | keep
  | offer (v : β)
  | clear

def Signal.apply : Signal β → Option β → Option β
  | .keep, held => held
  | .offer v, held => held.or (some v)
  | .clear, _ => none

/-- The first value that was offered since the latch was last cleared. -/
def latch (sig : α → Signal β) (trace : List α) : Option β :=
  trace.foldl (fun held e => (sig e).apply held) none

theorem latch_snoc (sig : α → Signal β) (trace : List α) (e : α) :
    latch sig (trace ++ [e]) = (sig e).apply (latch sig trace) := by
  rw [latch, List.foldl_append]
  rfl

/-- Events that do not concern a latch leave it alone. -/
theorem latch_append_of_keep {sig : α → Signal β} (trace : List α) {es : List α}
    (h : ∀ e ∈ es, sig e = .keep) : latch sig (trace ++ es) = latch sig trace := by
  induction es using List.reverseRecOn with
  | nil => rw [List.append_nil]
  | append_singleton es e ih =>
    rw [← List.append_assoc, latch_snoc, h e List.mem_concat_self]
    apply ih
    intro e' he'
    exact h e' (List.mem_append_left _ he')

end Trace
