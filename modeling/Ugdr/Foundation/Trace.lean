import Mathlib.Data.List.Induction

/-! # Traces

A trace is the list of what has happened, the latest event last. This file is
independent of the events of a particular system.
-/

namespace Ugdr.Trace

universe u

variable {Event : Type u}

/-- Every event of the trace is in the relation `holds` with what came before it. -/
def Every (holds : List Event → Event → Prop) (trace : List Event) : Prop :=
  ∀ before event after, trace = before ++ event :: after → holds before event

variable {holds : List Event → Event → Prop}

theorem every_nil : Every holds [] := by
  intro before event after split
  cases before <;> cases split

@[simp] theorem every_concat {trace : List Event} {last : Event} :
    Every holds (trace ++ [last]) ↔ Every holds trace ∧ holds trace last := by
  constructor
  · refine fun every => ⟨fun before event after split => ?_, every trace last [] rfl⟩
    exact every before event (after ++ [last]) (by rw [split]; simp)
  · rintro ⟨every, atLast⟩ before event after split
    rcases List.eq_nil_or_concat after with rfl | ⟨after, final, rfl⟩
    · obtain ⟨rfl, same⟩ := List.append_inj' split rfl
      injection same with same
      exact same ▸ atLast
    · rw [List.concat_eq_append, ← List.cons_append, ← List.append_assoc] at split
      exact every before event after (List.append_inj' split rfl).1

theorem every_append {trace events : List Event} (every : Every holds trace)
    (quiet : ∀ before, ∀ event ∈ events, holds before event) :
    Every holds (trace ++ events) := by
  induction events using List.reverseRecOn with
  | nil => rwa [List.append_nil]
  | append_singleton events event induction =>
      rw [← List.append_assoc, every_concat]
      exact ⟨induction fun before other member => quiet before other (by simp [member]),
        quiet _ event (by simp)⟩

/-- Events that may follow whatever follows the trace. -/
theorem every_append_after {trace events : List Event} (every : Every holds trace)
    (follows : ∀ earlier, ∀ event ∈ events, holds (trace ++ earlier) event) :
    Every holds (trace ++ events) := by
  induction events using List.reverseRecOn with
  | nil => rwa [List.append_nil]
  | append_singleton events event induction =>
      rw [← List.append_assoc, every_concat]
      exact ⟨induction fun earlier other member => follows earlier other (by simp [member]),
        follows events event (by simp)⟩

@[simp] theorem filterMap_singleton {α : Type*} (projection : Event → Option α)
    (event : Event) : [event].filterMap projection = (projection event).toList := by
  cases projected : projection event <;> simp [projected]

end Ugdr.Trace
