import Mathlib.Data.Prod.Lex
import Mathlib.Logic.Relation
import Mathlib.Order.WellFounded

/-! # Halting

A relation halts at a state if no sequence of its steps from there goes on for ever. Nothing here
names a particular program.
-/

namespace Ugdr

universe u

variable {State : Type u} {step : State → State → Prop}

def Halts (step : State → State → Prop) (state : State) : Prop :=
  Acc (fun later earlier => step earlier later) state

/-- A loop around steps that go from one part to a later one, each with its own measure. -/
theorem halts_of_descends (rank work : State → Nat)
    (descends : ∀ state next, step state next →
      rank next < rank state ∨ rank next = rank state ∧ work next < work state)
    (state : State) : Halts step state := by
  have order : WellFounded
      (InvImage (Prod.Lex (· < ·) (· < ·)) fun state => (rank state, work state)) :=
    InvImage.wf _ (WellFounded.prod_lex Nat.lt_wfRel.wf Nat.lt_wfRel.wf)
  refine Subrelation.accessible (fun {next state} taken => ?_) (order.apply state)
  rcases descends state next taken with lower | ⟨same, less⟩
  · exact Prod.Lex.left _ _ lower
  · change Prod.Lex _ _ (rank next, work next) (rank state, work state)
    rw [same]
    exact Prod.Lex.right _ less

/-- Steps taken for as long as there are any come to an end. -/
theorem Halts.exists_last {state : State} (halts : Halts step state) :
    ∃ last, Relation.ReflTransGen step state last ∧ ∀ next, ¬step last next := by
  induction halts with
  | intro state _ induction =>
      by_cases stuck : ∀ next, ¬step state next
      · exact ⟨state, .refl, stuck⟩
      · obtain ⟨next, taken⟩ := not_forall_not.mp stuck
        obtain ⟨last, steps, stops⟩ := induction next taken
        exact ⟨last, .head taken steps, stops⟩

end Ugdr
