import Ugdr.Foundation.Bytes

/-! # Computations that stop at a fault

Reads of a buffer and arithmetic on sizes, as a computation that stops where the compiled
program would leave the buffer or wrap around. A safe computation never does; it returns a
result or one of the errors it reports. Nothing here names a particular program.
-/

namespace Ugdr

inductive Failure (Error : Type)
  | outOfBounds
  | overflow
  | failed (error : Error)
  deriving DecidableEq, Repr

abbrev Checked (Error Result : Type) := Except (Failure Error) Result

namespace Checked

open Wire

variable {Error Result Next : Type}

/-- The computation reports an error. -/
def fail (error : Error) : Checked Error Result :=
  .error (.failed error)

/-- Neither a read out of bounds nor a size that wraps around. -/
def Safe (computation : Checked Error Result) : Prop :=
  computation ≠ .error .outOfBounds ∧ computation ≠ .error .overflow

@[simp] theorem safe_ok (result : Result) : Safe (.ok result : Checked Error Result) :=
  ⟨nofun, nofun⟩

@[simp] theorem safe_fail (error : Error) : Safe (fail error : Checked Error Result) :=
  ⟨nofun, nofun⟩

/-! ## Sizes of 64 bits -/

def sizeAdd (left right : Nat) : Checked Error Nat :=
  if left + right < 2 ^ 64 then .ok (left + right) else .error .overflow

def sizeSub (left right : Nat) : Checked Error Nat :=
  if right ≤ left then .ok (left - right) else .error .overflow

def sizeMul (left right : Nat) : Checked Error Nat :=
  if left * right < 2 ^ 64 then .ok (left * right) else .error .overflow

theorem sizeAdd_eq {left right : Nat} (fits : left + right < 2 ^ 64) :
    (sizeAdd left right : Checked Error Nat) = .ok (left + right) :=
  if_pos fits

theorem sizeSub_eq {left right : Nat} (le : right ≤ left) :
    (sizeSub left right : Checked Error Nat) = .ok (left - right) :=
  if_pos le

theorem sizeMul_eq {left right : Nat} (fits : left * right < 2 ^ 64) :
    (sizeMul left right : Checked Error Nat) = .ok (left * right) :=
  if_pos fits

/-! ## Accesses of a buffer -/

/-- The bytes between two positions. -/
def slice (buffer : Bytes) (start stop : Nat) : Checked Error Bytes :=
  if start ≤ stop ∧ stop ≤ buffer.length then .ok ((buffer.drop start).take (stop - start))
  else .error .outOfBounds

theorem slice_eq {buffer : Bytes} {start stop : Nat} (ordered : start ≤ stop)
    (inside : stop ≤ buffer.length) :
    (slice buffer start stop : Checked Error Bytes) =
      .ok ((buffer.drop start).take (stop - start)) :=
  if_pos ⟨ordered, inside⟩

/-- A copy of `width` bytes into a scalar of the host, with the position behind it. -/
def load (width : Nat) (buffer : Bytes) (offset : Nat) : Checked Error (Nat × Nat) := do
  let bytes ← slice buffer offset (offset + width)
  return (fromLittleEndian bytes, offset + width)

/-- The bytes that a load copies. -/
def chunk (buffer : Bytes) (offset width : Nat) : Bytes :=
  (buffer.drop offset).take width

theorem load_eq {width offset : Nat} {buffer : Bytes} (inside : offset + width ≤ buffer.length) :
    (load width buffer offset : Checked Error (Nat × Nat)) =
      .ok (fromLittleEndian (chunk buffer offset width), offset + width) := by
  rw [load, slice_eq (Nat.le_add_right ..) inside, Nat.add_sub_cancel_left]
  rfl

theorem length_chunk {buffer : Bytes} {offset width : Nat}
    (inside : offset + width ≤ buffer.length) : (chunk buffer offset width).length = width := by
  rw [chunk, List.length_take, List.length_drop]
  omega

/-- Neighbouring chunks are one chunk. -/
theorem chunk_append (buffer : Bytes) (offset left right : Nat) :
    chunk buffer offset left ++ chunk buffer (offset + left) right =
      chunk buffer offset (left + right) := by
  rw [chunk, chunk, chunk, List.take_add, List.drop_drop]

theorem chunk_append_drop (buffer : Bytes) (offset width : Nat) :
    chunk buffer offset width ++ buffer.drop (offset + width) = buffer.drop offset := by
  rw [chunk, ← List.drop_drop, List.take_append_drop]

/-- A chunk written by `encode` at the front of the buffer. -/
theorem chunk_encode (width value : Nat) (rest : Bytes) :
    chunk (encode width value ++ rest) 0 width = encode width value := by
  rw [chunk, List.drop_zero, List.take_left' (length_encode _ _)]

theorem chunk_skip {width offset : Nat} (inside : width ≤ offset) (value size : Nat)
    (rest : Bytes) :
    chunk (encode width value ++ rest) offset size = chunk rest (offset - width) size := by
  rw [chunk, drop_encode inside, chunk]

end Checked

end Ugdr
