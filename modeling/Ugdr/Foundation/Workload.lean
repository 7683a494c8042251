import Mathlib.Algebra.Group.Action.Defs
import Mathlib.Algebra.BigOperators.Group.Finset.Basic
import Mathlib.Algebra.Order.BigOperators.Group.Finset
import Ugdr.Foundation.Halting

/-! # Work that is done in steps

Several parties have work to do. A step of one of them either does some of its work or waits, and
waiting changes nothing about the work. This file is independent of what the parties do.
-/

namespace Ugdr

universe u v w

/-! ## The work of many -/

section

variable {ι : Type u} {α : Type v} [DecidableEq ι]

/-- One of several has less work than before. -/
theorem sum_update_lt (places : Finset ι) (work : α → Nat) (states : ι → α) {place : ι} {next : α}
    (inside : place ∈ places) (less : work next < work (states place)) :
    ∑ other ∈ places, work (Function.update states place next other) <
      ∑ other ∈ places, work (states other) := by
  apply Finset.sum_lt_sum
  · intro other _
    rw [Function.update_apply]
    split_ifs with same
    · rw [same]
      exact less.le
    · exact Nat.le_refl _
  · refine ⟨place, inside, ?_⟩
    rw [Function.update_self]
    exact less

end

/-- A test that not all of several pass fails for one of them. -/
theorem exists_of_not_all {count : Nat} {test : Nat → Bool}
    (some_ : ¬(List.range count).all test = true) : ∃ place < count, test place = false := by
  rw [List.all_eq_true] at some_
  obtain ⟨place, failing⟩ := not_forall.mp some_
  obtain ⟨member, fails⟩ := Classical.not_imp.mp failing
  exact ⟨place, List.mem_range.mp member, Bool.eq_false_of_not_eq_true fails⟩

/-! ## Waiting and working -/

section

variable {State : Type u} (keeps : State → Prop) (work : State → Nat)
  (waits works : State → State → Prop)

/-- A party does some of its work after others have waited. -/
def Advances (state later : State) : Prop :=
  ∃ between, Relation.ReflTransGen waits state between ∧ works between later

/-- Steps that keep an invariant do only so much work, however long they wait between. -/
theorem halts_of_work
    (waiting : ∀ state later, keeps state → waits state later →
      keeps later ∧ work later = work state)
    (working : ∀ state later, keeps state → works state later →
      keeps later ∧ work later < work state)
    {state : State} (holds : keeps state) : Halts (Advances waits works) state := by
  have wait : ∀ {state between}, keeps state → Relation.ReflTransGen waits state between →
      keeps between ∧ work between = work state := by
    intro state between holds steps
    induction steps with
    | refl => exact ⟨holds, rfl⟩
    | tail _ last induction =>
        obtain ⟨kept, same⟩ := waiting _ _ induction.1 last
        exact ⟨kept, same.trans induction.2⟩
  induction amount : work state using Nat.strong_induction_on generalizing state with
  | _ amount induction =>
      constructor
      rintro later ⟨between, steps, last⟩
      obtain ⟨kept, same⟩ := wait holds steps
      obtain ⟨after, less⟩ := working _ _ kept last
      exact induction (work later) (by omega) after rfl

/-- Work for as long as there is any comes to an end. -/
theorem Halts.exists_rest {waits works : State → State → Prop} {state : State}
    (halts : Halts (Advances waits works) state) (runs : State → State → Prop)
    (waiting : ∀ state later, waits state later → runs state later)
    (working : ∀ state later, works state later → runs state later) :
    ∃ last, Relation.ReflTransGen runs state last ∧ ∀ later, ¬works last later := by
  obtain ⟨last, steps, rest⟩ := halts.exists_last
  refine ⟨last, ?_, fun later step => rest later ⟨last, .refl, step⟩⟩
  clear rest
  induction steps with
  | refl => exact .refl
  | tail _ advance induction =>
      obtain ⟨between, wait, work⟩ := advance
      exact (induction.trans (Relation.ReflTransGen.mono waiting _ _ wait)).tail (working _ _ work)

end

/-! ## Taking turns -/

section

variable {State : Type u} {Turn : Type v} {View : Type w}

/-- Parties that take turns. A turn keeps what holds and leaves what is seen from outside as it
is, and it does some of the work unless the party is blocked or looks for work in vain. -/
structure TakesTurns (step : State → Turn → State) (takes : Turn → Prop)
    (looks blocked : State → Turn → Prop) (keeps : State → Prop) (view : State → View)
    (work : State → Nat) : Prop where
  kept : ∀ {state turn}, keeps state → takes turn →
    keeps (step state turn) ∧ view (step state turn) = view state
  vain : ∀ {state turn}, keeps state → looks state turn →
    work (step state turn) = work state
  progress : ∀ {state turn}, keeps state → takes turn → ¬looks state turn →
    (blocked state turn ∧ step state turn = state) ∨ work (step state turn) < work state

/-- A turn. -/
def Turns (step : State → Turn → State) (takes : Turn → Prop) (state later : State) : Prop :=
  ∃ turn, takes turn ∧ later = step state turn

/-- A turn that changes nothing or looks in vain. -/
def IdleTurns (step : State → Turn → State) (takes : Turn → Prop) (looks : State → Turn → Prop)
    (state later : State) : Prop :=
  ∃ turn, takes turn ∧ later = step state turn ∧ (looks state turn ∨ later = state)

/-- Any other turn. -/
def BusyTurns (step : State → Turn → State) (takes : Turn → Prop) (looks : State → Turn → Prop)
    (state later : State) : Prop :=
  ∃ turn, takes turn ∧ later = step state turn ∧ ¬looks state turn ∧ later ≠ state

namespace TakesTurns

variable {step : State → Turn → State} {takes : Turn → Prop} {looks blocked : State → Turn → Prop}
  {keeps : State → Prop} {view : State → View} {work : State → Nat} {state later : State}
  (rules : TakesTurns step takes looks blocked keeps view work)

include rules

theorem idle (holds : keeps state) (turns : IdleTurns step takes looks state later) :
    keeps later ∧ work later = work state := by
  obtain ⟨turn, taken, rfl, vain | same⟩ := turns
  · exact ⟨(rules.kept holds taken).1, rules.vain holds vain⟩
  · rw [same]
    exact ⟨holds, rfl⟩

theorem busy (holds : keeps state) (turns : BusyTurns step takes looks state later) :
    keeps later ∧ work later < work state := by
  obtain ⟨turn, taken, rfl, looking, moved⟩ := turns
  refine ⟨(rules.kept holds taken).1, ?_⟩
  exact (rules.progress holds taken looking).resolve_left fun blocked => moved blocked.2

theorem halts (holds : keeps state) :
    Halts (Advances (IdleTurns step takes looks) (BusyTurns step takes looks)) state :=
  halts_of_work keeps work _ _ (fun _ _ => rules.idle) (fun _ _ => rules.busy) holds

omit rules in
/-- Turns that do some of the work, for as long as there are any, come to an end. -/
theorem exists_rest
    (halts : Halts (Advances (IdleTurns step takes looks) (BusyTurns step takes looks)) state) :
    ∃ last, Relation.ReflTransGen (Turns step takes) state last ∧
      ∀ later, ¬BusyTurns step takes looks last later :=
  halts.exists_rest _ (fun _ _ ⟨turn, taken, same, _⟩ => ⟨turn, taken, same⟩)
    fun _ _ ⟨turn, taken, same, _⟩ => ⟨turn, taken, same⟩

theorem reaches (holds : keeps state)
    (steps : Relation.ReflTransGen (Turns step takes) state later) :
    keeps later ∧ view later = view state := by
  induction steps with
  | refl => exact ⟨holds, rfl⟩
  | tail _ turns induction =>
      obtain ⟨turn, taken, rfl⟩ := turns
      obtain ⟨after, seen⟩ := rules.kept induction.1 taken
      exact ⟨after, seen.trans induction.2⟩

/-- Where no party can do anything, each one is blocked or looks in vain. -/
theorem blocked_of_rest (holds : keeps state)
    (rest : ∀ later, ¬BusyTurns step takes looks state later) {turn : Turn} (taken : takes turn)
    (looking : ¬looks state turn) : blocked state turn := by
  rcases rules.progress holds taken looking with waiting | less
  · exact waiting.1
  · refine absurd ⟨turn, taken, rfl, looking, fun same => ?_⟩ (rest (step state turn))
    rw [same] at less
    exact Nat.lt_irrefl _ less

end TakesTurns

end

end Ugdr
