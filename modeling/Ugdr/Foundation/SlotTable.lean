import Mathlib.Data.List.Perm.Basic
import Mathlib.Data.List.Range
import Mathlib.Logic.Function.Basic

/-! # Tables of slots and rings

What a table of numbered slots holds, and what a ring between two counters holds. This
file is independent of what is stored.
-/

namespace Ugdr.SlotTable

universe u v

variable {α : Type u} {β : Type v}

/-- What the first `size` slots hold, read with `view`. -/
def contents (view : α → Option β) (size : Nat) (table : Nat → α) : List β :=
  (List.range size).filterMap fun index => view (table index)

variable {view : α → Option β} {size index : Nat} {table : Nat → α} {value : α} {item : β}

theorem mem_contents :
    item ∈ contents view size table ↔ ∃ index < size, view (table index) = some item := by
  simp [contents]

theorem contents_succ (view : α → Option β) (size : Nat) (table : Nat → α) :
    contents view (size + 1) table =
      contents view size table ++ (view (table size)).toList := by
  rw [contents, List.range_succ, List.filterMap_append, contents]
  cases held : view (table size) <;> simp [held]

/-- A slot beyond the table does not matter. -/
theorem contents_update_of_le (outside : size ≤ index) (value : α) :
    contents view size (Function.update table index value) = contents view size table := by
  apply List.filterMap_congr
  intro other member
  rw [Function.update_of_ne]
  have := List.mem_range.mp member
  omega

/-- A write that the view does not see. -/
theorem contents_update_of_eq (same : view value = view (table index)) :
    contents view size (Function.update table index value) = contents view size table := by
  apply List.filterMap_congr
  intro other _
  by_cases equal : other = index
  · rw [equal, Function.update_self, same]
  · rw [Function.update_of_ne equal]

theorem contents_update_insert (inside : index < size) (free : view (table index) = none)
    (stored : view value = some item) :
    (contents view size (Function.update table index value)).Perm
      (item :: contents view size table) := by
  induction size with
  | zero => omega
  | succ size induction =>
      rw [contents_succ, contents_succ]
      by_cases last : index = size
      · subst last
        rw [contents_update_of_le (Nat.le_refl _), Function.update_self, free, stored]
        simp
      · rw [Function.update_of_ne (Ne.symm last)]
        exact (induction (by omega)).append_right _

theorem contents_update_erase (inside : index < size) (held : view (table index) = some item)
    (cleared : view value = none) :
    (contents view size table).Perm
      (item :: contents view size (Function.update table index value)) := by
  have restored : Function.update (Function.update table index value) index (table index) =
      table := by
    rw [Function.update_idem, Function.update_eq_self]
  have free : view (Function.update table index value index) = none := by
    rw [Function.update_self, cleared]
  have inserted := contents_update_insert inside free held
  rwa [restored] at inserted

theorem length_contents_le : (contents view size table).length ≤ size := by
  have shorter := List.length_filterMap_le (fun index => view (table index)) (List.range size)
  rwa [List.length_range] at shorter

/-- A table with a slot that holds nothing is not full. -/
theorem length_contents_lt (inside : index < size) (free : view (table index) = none) :
    (contents view size table).length < size := by
  induction size with
  | zero => omega
  | succ size induction =>
      rw [contents_succ, List.length_append]
      by_cases last : index = size
      · subst last
        have := @length_contents_le _ _ view index table
        simp [free]
        omega
      · have := induction (by omega)
        cases view (table size) <;> simp <;> omega

theorem contents_eq_nil_of_free (free : ∀ index < size, view (table index) = none) :
    contents view size table = [] := by
  rw [contents, List.filterMap_eq_nil_iff]
  intro index member
  exact free index (List.mem_range.mp member)

/-! ## Rings -/

/-- The `count` entries from the counter `head` on, in a ring whose size is a power of
two. -/
def ring (entries : Nat → α) (size head count : Nat) : List α :=
  (List.range count).map fun offset => entries ((head + offset) % size)

variable {entries : Nat → α} {head count : Nat}

@[simp] theorem ring_zero : ring entries size head 0 = [] :=
  rfl

@[simp] theorem length_ring : (ring entries size head count).length = count := by
  simp [ring]

theorem ring_succ :
    ring entries size head (count + 1) =
      ring entries size head count ++ [entries ((head + count) % size)] := by
  simp [ring, List.range_succ]

theorem ring_succ_left :
    ring entries size head (count + 1) =
      entries (head % size) :: ring entries size (head + 1) count := by
  rw [ring, List.range_succ_eq_map, List.map_cons, List.map_map, ring]
  congr 1
  apply List.map_congr_left
  intro offset _
  simp [Nat.add_assoc, Nat.add_comm 1 offset]

/-- The position after the last entry is not one of the entries of a ring that is not
full. -/
theorem ring_update_tail (room : count < size) (value : α) :
    ring (Function.update entries ((head + count) % size) value) size head count =
      ring entries size head count := by
  apply List.map_congr_left
  intro offset member
  rw [Function.update_of_ne]
  intro same
  have less := List.mem_range.mp member
  have aligned : size ∣ (head + count) - (head + offset) :=
    Nat.dvd_of_mod_eq_zero (Nat.sub_mod_eq_zero_of_mod_eq same.symm)
  have positive : 0 < (head + count) - (head + offset) := by omega
  have := Nat.le_of_dvd positive aligned
  omega

theorem ring_push (room : count < size) (value : α) :
    ring (Function.update entries ((head + count) % size) value) size head (count + 1) =
      ring entries size head count ++ [value] := by
  rw [ring_succ, ring_update_tail room, Function.update_self]

/-- Where the counters are only known modulo a multiple of the size. -/
theorem ring_mod {modulus : Nat} (divides : size ∣ modulus) :
    ring entries size (head % modulus) count = ring entries size head count := by
  apply List.map_congr_left
  intro offset _
  rw [Nat.add_mod, Nat.mod_mod_of_dvd head divides, ← Nat.add_mod]

end Ugdr.SlotTable
