import Mathlib.Algebra.BigOperators.Group.Finset.Piecewise
import Mathlib.Data.List.Perm.Basic

/-! # Logs of several lanes

One log for all lanes has an entry for each event, with the lane it belongs to. This file is
independent of what the lanes log.
-/

namespace Ugdr.LaneLogs

universe u v

variable {α : Type u} {β : Type v} {lane : Nat} {log : List (Nat × α)}

/-- What a lane has logged. -/
def ofLane (lane : Nat) (log : List (Nat × α)) : List α :=
  log.filterMap fun entry => if entry.1 = lane then some entry.2 else none

theorem ofLane_push (item : α) :
    ofLane lane (log ++ [(lane, item)]) = ofLane lane log ++ [item] := by
  unfold ofLane
  rw [List.filterMap_append, List.filterMap_cons, if_pos rfl, List.filterMap_nil]

theorem ofLane_push_of_ne {other : Nat} (different : lane ≠ other) (item : α) :
    ofLane lane (log ++ [(other, item)]) = ofLane lane log := by
  unfold ofLane
  rw [List.filterMap_append, List.filterMap_cons, if_neg different.symm, List.filterMap_nil,
    List.append_nil]

theorem ofLane_map (answer : α → β) :
    ofLane lane (log.map fun entry => (entry.1, answer entry.2)) =
      (ofLane lane log).map answer := by
  induction log with
  | nil => rfl
  | cons entry log induction =>
      unfold ofLane at induction ⊢
      rw [List.map_cons, List.filterMap_cons, List.filterMap_cons, induction]
      split_ifs
      · rfl
      · rfl

theorem count_ofLane [DecidableEq α] (item : α) :
    (ofLane lane log).count item = log.count (lane, item) := by
  induction log with
  | nil => rfl
  | cons entry log induction =>
      obtain ⟨other, logged⟩ := entry
      unfold ofLane at induction ⊢
      rw [List.filterMap_cons, List.count_cons, ← induction]
      by_cases same : other = lane
      · rw [if_pos same, List.count_cons, same]
        simp only [beq_iff_eq, Prod.mk.injEq, true_and]
      · rw [if_neg same]
        simp only [beq_iff_eq, Prod.mk.injEq, same, false_and, if_false, Nat.add_zero]

/-- Logs agree up to the order of different lanes when every lane logs the same. -/
theorem perm_of_ofLane {left right : List (Nat × α)}
    (same : ∀ lane, ofLane lane left = ofLane lane right) : left.Perm right := by
  classical
  apply List.perm_iff_count.mpr
  intro entry
  rw [← count_ofLane, ← count_ofLane, same]

/-- Every entry belongs to one lane. -/
theorem sum_length_ofLane {lanes : Nat} (inside : ∀ entry ∈ log, entry.1 < lanes) :
    ∑ lane ∈ Finset.range lanes, (ofLane lane log).length = log.length := by
  induction log with
  | nil => exact Finset.sum_eq_zero fun _ _ => rfl
  | cons entry log induction =>
      have first := inside entry (List.mem_cons_self ..)
      have rest := induction fun other member => inside other (List.mem_cons_of_mem _ member)
      have split : ∀ lane, (ofLane lane (entry :: log)).length =
          (ofLane lane log).length + if entry.1 = lane then 1 else 0 := by
        intro lane
        unfold ofLane
        rw [List.filterMap_cons]
        split_ifs <;> rfl
      rw [Finset.sum_congr rfl fun lane _ => split lane, Finset.sum_add_distrib, rest,
        Finset.sum_ite_eq, if_pos (Finset.mem_range.mpr first), List.length_cons]

end Ugdr.LaneLogs
