import Mathlib.Algebra.Group.Nat.Defs
import Mathlib.Data.Nat.ModEq
import Mathlib.Logic.Function.Basic

/-! # Logs in rings

A log that is written to a ring of slots shows its last entries. This file is independent of
what is stored.
-/

namespace Ugdr.RingLog

universe u

variable {α : Type u} {size : Nat}

/-- Two indices that are less than a round apart have different slots. -/
theorem eq_of_mod_eq {left right : Nat} (leftNear : left < right + size)
    (rightNear : right < left + size) (same : left % size = right % size) : left = right := by
  rcases Nat.le_total left right with le | le
  · have apart := (Nat.modEq_iff_dvd' le).mp same
    have := Nat.eq_zero_of_dvd_of_lt apart (by omega)
    omega
  · have apart := (Nat.modEq_iff_dvd' le).mp same.symm
    have := Nat.eq_zero_of_dvd_of_lt apart (by omega)
    omega

/-- The slots show the last `size` entries of the log, each at its index. -/
def Holds (slots : Nat → α) (size : Nat) (log : List α) : Prop :=
  ∀ index item, log[index]? = some item → log.length ≤ index + size →
    slots (index % size) = item

theorem holds_nil (slots : Nat → α) : Holds slots size [] := by
  intro index item found
  exact absurd found (by rw [List.getElem?_nil]; exact Option.some_ne_none item ∘ Eq.symm)

namespace Holds

variable {slots : Nat → α} {log : List α}

theorem push (holds : Holds slots size log) (item : α) :
    Holds (Function.update slots (log.length % size) item) size (log ++ [item]) := by
  intro index entry found near
  rw [List.length_append, List.length_singleton] at near
  by_cases last : index = log.length
  · rw [last, List.getElem?_concat_length] at found
    rw [last, Function.update_self]
    exact Option.some_inj.mp found
  · have below : index < log.length := by
      have bound := (List.getElem?_eq_some_iff.mp found).1
      rw [List.length_append, List.length_singleton] at bound
      omega
    rw [List.getElem?_append_left below] at found
    rw [Function.update_of_ne]
    · exact holds index entry found (by omega)
    · intro same
      exact last (eq_of_mod_eq (by omega) (by omega) same)

/-- Other slots do not matter. -/
theorem congr (holds : Holds slots size log) {later : Nat → α}
    (agrees : ∀ index < size, later index = slots index) (positive : 0 < size) :
    Holds later size log := by
  intro index item found near
  rw [agrees _ (Nat.mod_lt index positive)]
  exact holds index item found near

end Holds

end Ugdr.RingLog
