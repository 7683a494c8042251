import Mathlib.Algebra.Group.Nat.Defs
import Mathlib.Data.Nat.Basic
import Mathlib.Logic.Function.Basic

/-! # Fixed-width unsigned arithmetic and atomic accesses

Unsigned machine arithmetic on natural numbers, and calls that access shared
words one at a time. Nothing here names a particular program.
-/

namespace Ugdr.Machine

/-! ## Wrapping arithmetic -/

def wrapAdd (width left right : Nat) : Nat :=
  (left + right) % 2 ^ width

def wrapSub (width left right : Nat) : Nat :=
  (left + 2 ^ width - right) % 2 ^ width

theorem wrapAdd_of_lt {width left right : Nat} (fits : left + right < 2 ^ width) :
    wrapAdd width left right = left + right :=
  Nat.mod_eq_of_lt fits

theorem wrapSub_of_le {width left right : Nat} (le : right ≤ left)
    (fits : left < 2 ^ width) : wrapSub width left right = left - right := by
  have split : left + 2 ^ width - right = left - right + 2 ^ width := by omega
  rw [wrapSub, split, Nat.add_mod_right, Nat.mod_eq_of_lt (by omega)]

theorem wrapAdd_mod (width count step : Nat) :
    wrapAdd width (count % 2 ^ width) step = (count + step) % 2 ^ width :=
  Nat.mod_add_mod count (2 ^ width) step

/-- The difference of two wrapped counters is the true difference, as long as
that difference fits in the width. -/
theorem wrapSub_mod {width later earlier : Nat} (le : earlier ≤ later)
    (fits : later - earlier < 2 ^ width) :
    wrapSub width (later % 2 ^ width) (earlier % 2 ^ width) = later - earlier := by
  obtain ⟨distance, rfl⟩ := Nat.exists_eq_add_of_le le
  rw [Nat.add_sub_cancel_left] at fits ⊢
  have positive : 0 < 2 ^ width := by omega
  have bound := Nat.mod_lt earlier positive
  rw [wrapSub, Nat.add_mod earlier distance, Nat.mod_eq_of_lt fits]
  generalize earlier % 2 ^ width = low at bound ⊢
  by_cases carry : low + distance < 2 ^ width
  · rw [Nat.mod_eq_of_lt carry]
    have split : low + distance + 2 ^ width - low = distance + 2 ^ width := by omega
    rw [split, Nat.add_mod_right, Nat.mod_eq_of_lt fits]
  · have wrapped : (low + distance) % 2 ^ width = low + distance - 2 ^ width := by
      rw [Nat.mod_eq_sub_mod (by omega), Nat.mod_eq_of_lt (by omega)]
    have split : low + distance - 2 ^ width + 2 ^ width - low = distance := by omega
    rw [wrapped, split, Nat.mod_eq_of_lt fits]

/-! ## Atomic accesses -/

universe u v

/-- A call that computes locally between atomic accesses of shared words. Each
`load` and each `store` is one indivisible step of the system it runs in. -/
inductive Program (Word : Type u) (α : Type v)
  | done (result : α)
  | load (word : Word) (next : Nat → Program Word α)
  | store (word : Word) (value : Nat) (next : Program Word α)

namespace Program

variable {Word : Type u} {α : Type v} [DecidableEq Word]

/-- Run a call to its end without interference. -/
def run : Program Word α → (Word → Nat) → α × (Word → Nat)
  | .done result, words => (result, words)
  | .load word next, words => (next (words word)).run words
  | .store word value next, words => next.run (Function.update words word value)

end Program

end Ugdr.Machine
