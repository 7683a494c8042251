import Mathlib.Data.List.Basic

/-! # Runs of a step function

A system whose every source of nondeterminism is part of the action is a plain
step function, and a run of it is a left fold over a list of actions. This file
is independent of any particular system.
-/

namespace Ugdr.Execution

universe u v

variable {State : Type u} {Action : Type v}

/-- The state reached by performing `actions` in order. -/
def run (step : State → Action → State) (initial : State)
    (actions : List Action) : State :=
  actions.foldl step initial

section

variable (step : State → Action → State)

@[simp] theorem run_nil (initial : State) : run step initial [] = initial :=
  rfl

@[simp] theorem run_cons (initial : State) (action : Action)
    (actions : List Action) :
    run step initial (action :: actions) =
      run step (step initial action) actions :=
  rfl

theorem run_append (initial : State) (before after : List Action) :
    run step initial (before ++ after) =
      run step (run step initial before) after :=
  List.foldl_append

@[simp] theorem run_concat (initial : State) (actions : List Action)
    (action : Action) :
    run step initial (actions ++ [action]) =
      step (run step initial actions) action :=
  run_append step initial actions [action]

/-- Every step of the run, taken from the state it starts in, satisfies
`Admissible`. -/
def Along (Admissible : State → Action → Prop) :
    State → List Action → Prop
  | _, [] => True
  | state, action :: actions =>
      Admissible state action ∧ Along Admissible (step state action) actions

instance decidableAlong (Admissible : State → Action → Prop)
    [∀ state action, Decidable (Admissible state action)] :
    ∀ initial actions, Decidable (Along step Admissible initial actions)
  | _, [] => inferInstanceAs (Decidable True)
  | state, action :: actions =>
      have := decidableAlong Admissible (step state action) actions
      inferInstanceAs (Decidable (_ ∧ _))

end

variable {step : State → Action → State}

theorem along_append {Admissible : State → Action → Prop} {initial : State}
    {before after : List Action} :
    Along step Admissible initial (before ++ after) ↔
      Along step Admissible initial before ∧
        Along step Admissible (run step initial before) after := by
  induction before generalizing initial with
  | nil => simp [Along]
  | cons action actions induction =>
      simp only [List.cons_append, Along, run_cons, induction, and_assoc]

/-- The invariant rule for runs whose steps are all admissible. -/
theorem run_invariant_along {Admissible : State → Action → Prop}
    {Invariant : State → Prop} {initial : State} {actions : List Action}
    (preserved : ∀ state action, Admissible state action →
      Invariant state → Invariant (step state action))
    (holds : Invariant initial)
    (along : Along step Admissible initial actions) :
    Invariant (run step initial actions) := by
  induction actions generalizing initial with
  | nil => exact holds
  | cons action actions induction =>
      exact induction (preserved initial action along.1 holds) along.2

/-- The invariant rule for arbitrary runs. -/
theorem run_invariant {Invariant : State → Prop} {initial : State}
    (preserved : ∀ state action, Invariant state → Invariant (step state action))
    (holds : Invariant initial) (actions : List Action) :
    Invariant (run step initial actions) := by
  induction actions generalizing initial with
  | nil => exact holds
  | cons action actions induction =>
      exact induction (preserved initial action holds)

/-- What no step makes less, no run makes less. -/
theorem run_mono (size : State → Nat)
    (grows : ∀ state action, size state ≤ size (step state action))
    (initial : State) (actions : List Action) :
    size initial ≤ size (run step initial actions) := by
  induction actions generalizing initial with
  | nil => exact Nat.le_refl _
  | cons action actions induction =>
      exact Nat.le_trans (grows initial action) (induction (step initial action))

section

variable (size : State → Nat) {bound : Nat} {Invariant : State → Prop} {initial : State}
  {actions : List Action}

/-- The invariant rule for runs that end below a bound, where what is bounded only grows. -/
theorem run_invariant_below
    (grows : ∀ state action, size state ≤ size (step state action))
    (preserved : ∀ state action, size (step state action) ≤ bound →
      Invariant state → Invariant (step state action))
    (holds : Invariant initial)
    (below : size (run step initial actions) ≤ bound) :
    Invariant (run step initial actions) := by
  induction actions generalizing initial with
  | nil => exact holds
  | cons action actions induction =>
      have later := run_mono size grows (step initial action) actions
      exact induction (preserved initial action (Nat.le_trans later below) holds) below

/-- What the invariant says about each step of such a run. -/
theorem along_of_invariant_below {Admissible : State → Action → Prop}
    (grows : ∀ state action, size state ≤ size (step state action))
    (preserved : ∀ state action, size (step state action) ≤ bound →
      Invariant state → Invariant (step state action))
    (admits : ∀ state action, Invariant state → Admissible state action)
    (holds : Invariant initial)
    (below : size (run step initial actions) ≤ bound) :
    Along step Admissible initial actions := by
  induction actions generalizing initial with
  | nil => trivial
  | cons action actions induction =>
      have later := run_mono size grows (step initial action) actions
      exact ⟨admits initial action holds,
        induction (preserved initial action (Nat.le_trans later below) holds) below⟩

end

end Ugdr.Execution
