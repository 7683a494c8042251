import Ugdr.Errno
import Mathlib.Data.List.Basic

/-! # Rings at call granularity

A shared ring as its callers see it when every call runs to its end without
interference: a bounded list of published elements, an open reservation and an
open peek.
-/

namespace Ugdr.Queue

universe u

structure Fifo (α : Type u) where
  capacity : Nat
  items : List α := []
  reserved : Nat := 0
  peeked : Nat := 0

namespace Fifo

variable {α : Type u}

/-- `producer_reserve` of one slot. -/
def reserve (fifo : Fifo α) : Except Errno (Fifo α) :=
  if fifo.reserved ≠ 0 then
    .error .einval
  else if fifo.capacity ≤ fifo.items.length then
    .error .eagain
  else
    .ok { fifo with reserved := 1 }

/-- `producer_publish` of the elements written to the first reserved slots. -/
def publish (fifo : Fifo α) (elements : List α) : Except Errno (Fifo α) :=
  if fifo.reserved = 0 ∨ fifo.reserved < elements.length then
    .error .einval
  else
    .ok { fifo with items := fifo.items ++ elements, reserved := 0 }

/-- `consumer_peek` of one slot, with the element it holds. -/
def peek (fifo : Fifo α) : Except Errno (α × Fifo α) :=
  if fifo.peeked ≠ 0 then
    .error .einval
  else
    match fifo.items with
    | [] => .error .eagain
    | item :: _ => .ok (item, { fifo with peeked := 1 })

/-- `consumer_release`. -/
def release (fifo : Fifo α) (count : Nat) : Except Errno (Fifo α) :=
  if fifo.peeked = 0 ∨ fifo.peeked < count then
    .error .einval
  else
    .ok { fifo with items := fifo.items.drop count, peeked := 0 }

/-- Reserve one slot, write it and publish it. -/
def produce (fifo : Fifo α) (element : α) : Except Errno (Fifo α) :=
  match fifo.reserve with
  | .error status => .error status
  | .ok fifo => fifo.publish [element]

/-- Peek one slot and release it. -/
def consume (fifo : Fifo α) : Except Errno (α × Fifo α) :=
  match fifo.peek with
  | .error status => .error status
  | .ok (item, fifo) =>
      match fifo.release 1 with
      | .error status => .error status
      | .ok fifo => .ok (item, fifo)

theorem reserve_eq_ok {fifo updated : Fifo α} (reserved : fifo.reserve = .ok updated) :
    fifo.reserved = 0 ∧ updated = { fifo with reserved := 1 } := by
  unfold reserve at reserved
  split at reserved
  · cases reserved
  · rename_i closed
    split at reserved
    · cases reserved
    · injection reserved with reserved
      exact ⟨not_not.mp closed, reserved.symm⟩

theorem publish_of_reserved (fifo : Fifo α) {elements : List α} (le : elements.length ≤ 1) :
    publish { fifo with reserved := 1 } elements =
      .ok { fifo with items := fifo.items ++ elements, reserved := 0 } := by
  simp [publish, Nat.not_lt.mpr le]

theorem produce_eq_ok {fifo updated : Fifo α} {element : α}
    (produced : fifo.produce element = .ok updated) :
    fifo.reserved = 0 ∧ updated = { fifo with items := fifo.items ++ [element] } := by
  unfold produce at produced
  split at produced
  · cases produced
  · rename_i held reserved
    obtain ⟨closed, rfl⟩ := reserve_eq_ok reserved
    rw [publish_of_reserved fifo (by simp)] at produced
    injection produced with produced
    exact ⟨closed, by rw [← produced, ← closed]⟩

theorem peek_eq_ok {fifo updated : Fifo α} {item : α}
    (peeked : fifo.peek = .ok (item, updated)) :
    fifo.peeked = 0 ∧ fifo.items.head? = some item ∧
      updated = { fifo with peeked := 1 } := by
  unfold peek at peeked
  by_cases open_ : fifo.peeked ≠ 0
  · simp [open_] at peeked
  · rw [if_neg open_] at peeked
    split at peeked
    · cases peeked
    · rename_i head rest items
      simp only [Except.ok.injEq, Prod.mk.injEq] at peeked
      exact ⟨not_not.mp open_, by rw [items, ← peeked.1]; rfl, peeked.2.symm⟩

theorem release_of_peeked {fifo : Fifo α} (peeked : fifo.peeked = 1) {count : Nat}
    (le : count ≤ 1) :
    fifo.release count = .ok { fifo with items := fifo.items.drop count, peeked := 0 } := by
  unfold release
  rw [if_neg (by omega)]

theorem consume_eq_ok {fifo updated : Fifo α} {item : α}
    (consumed : fifo.consume = .ok (item, updated)) :
    ∃ rest, fifo.items = item :: rest ∧ updated = { fifo with items := rest } := by
  unfold consume at consumed
  split at consumed
  · cases consumed
  · rename_i first held peeked
    obtain ⟨closed, head, rfl⟩ := peek_eq_ok peeked
    rw [release_of_peeked rfl (Nat.le_refl 1)] at consumed
    simp only [Except.ok.injEq, Prod.mk.injEq] at consumed
    obtain ⟨rfl, rfl⟩ := consumed
    cases items : fifo.items with
    | nil => rw [items] at head; cases head
    | cons other rest =>
        rw [items] at head
        injection head with head
        exact ⟨rest, by rw [head], by rw [← closed]; rfl⟩

theorem produce_of_lt {fifo : Fifo α} (closed : fifo.reserved = 0)
    (room : fifo.items.length < fifo.capacity) (element : α) :
    fifo.produce element = .ok { fifo with items := fifo.items ++ [element] } := by
  have reserve : fifo.reserve = .ok { fifo with reserved := 1 } := by
    rw [Fifo.reserve, if_neg (not_not.mpr closed), if_neg (Nat.not_le_of_lt room)]
  unfold produce
  simp only [reserve]
  rw [publish_of_reserved fifo (by simp), ← closed]

theorem consume_of_cons {fifo : Fifo α} (closed : fifo.peeked = 0) {item : α} {rest : List α}
    (items : fifo.items = item :: rest) :
    fifo.consume = .ok (item, { fifo with items := rest }) := by
  have peek : fifo.peek = .ok (item, { fifo with peeked := 1 }) := by
    unfold Fifo.peek
    rw [if_neg (not_not.mpr closed), items]
  have release : ({ fifo with peeked := 1 } : Fifo α).release 1 =
      .ok { fifo with items := rest } := by
    rw [release_of_peeked rfl (Nat.le_refl 1), items, ← closed]
    rfl
  unfold consume
  simp only [peek, release]

end Fifo

end Ugdr.Queue
