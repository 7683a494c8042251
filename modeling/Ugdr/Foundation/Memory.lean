import Mathlib.Algebra.Group.Nat.Defs
import Mathlib.Data.List.Basic

/-! # Byte memory

Memory as a function from addresses to bytes, with stores and loads of little-endian
numbers. This file is independent of the layout of a particular program.
-/

namespace Ugdr

abbrev Memory := Nat → UInt8

namespace Memory

/-- Store the low `width` bytes of a value. -/
def store (memory : Memory) (address width value : Nat) : Memory := fun position =>
  if address ≤ position ∧ position < address + width then
    UInt8.ofNat (value / 256 ^ (position - address))
  else
    memory position

def load (memory : Memory) (address : Nat) : Nat → Nat
  | 0 => 0
  | width + 1 => (memory address).toNat + 256 * load memory (address + 1) width

/-- A store that has yet to be made. -/
structure Write where
  address : Nat
  width : Nat
  value : Nat
  deriving DecidableEq, Repr

namespace Write

def Covers (write : Write) (position : Nat) : Prop :=
  write.address ≤ position ∧ position < write.address + write.width

/-- The write leaves `width` bytes from `address` alone. -/
def Avoids (write : Write) (address width : Nat) : Prop :=
  write.address + write.width ≤ address ∨ address + width ≤ write.address

end Write

def storeAll (memory : Memory) (writes : List Write) : Memory :=
  writes.foldl (fun memory write => memory.store write.address write.width write.value) memory

variable {memory other : Memory} {address width : Nat}

/-! ## Stores and loads -/

theorem store_outside {value position : Nat}
    (outside : position < address ∨ address + width ≤ position) :
    memory.store address width value position = memory position := by
  rw [store, if_neg]
  omega

theorem store_inside {value offset : Nat} (inside : offset < width) :
    memory.store address width value (address + offset) = UInt8.ofNat (value / 256 ^ offset) := by
  rw [store, if_pos (by omega), Nat.add_sub_cancel_left]

/-- A load depends on the bytes it reads only. -/
theorem load_congr
    (same : ∀ offset < width, memory (address + offset) = other (address + offset)) :
    memory.load address width = other.load address width := by
  induction width generalizing address with
  | zero => rfl
  | succ width induction =>
      have first := same 0 (Nat.succ_pos width)
      rw [Nat.add_zero] at first
      rw [load, load, first, induction]
      intro offset inside
      have next := same (offset + 1) (Nat.succ_lt_succ inside)
      rwa [Nat.add_comm offset 1, ← Nat.add_assoc] at next

theorem load_eq_mod {value : Nat}
    (bytes : ∀ offset < width, memory (address + offset) = UInt8.ofNat (value / 256 ^ offset)) :
    memory.load address width = value % 256 ^ width := by
  induction width generalizing address value with
  | zero => rw [load, Nat.pow_zero, Nat.mod_one]
  | succ width induction =>
      have first := bytes 0 (Nat.succ_pos width)
      rw [Nat.add_zero, Nat.pow_zero, Nat.div_one] at first
      have rest : memory.load (address + 1) width = value / 256 % 256 ^ width := by
        refine induction fun offset inside => ?_
        have next := bytes (offset + 1) (Nat.succ_lt_succ inside)
        rwa [Nat.add_comm offset 1, ← Nat.add_assoc, Nat.pow_add, Nat.pow_one,
          ← Nat.div_div_eq_div_mul] at next
      have low : (UInt8.ofNat value).toNat = value % 256 := UInt8.toNat_ofNat'
      rw [load, first, low, rest, ← Nat.mod_mul, ← Nat.pow_succ']

/-- The bytes of a loaded number are those in memory. -/
theorem load_byte {offset : Nat} (inside : offset < width) :
    UInt8.ofNat (memory.load address width / 256 ^ offset) = memory (address + offset) := by
  induction offset generalizing address width with
  | zero =>
      obtain ⟨width, rfl⟩ := Nat.exists_eq_succ_of_ne_zero (Nat.ne_of_gt inside)
      rw [Nat.pow_zero, Nat.div_one, load, ← UInt8.toNat_inj, UInt8.toNat_ofNat',
        Nat.add_mul_mod_self_left]
      exact Nat.mod_eq_of_lt (memory address).toNat_lt
  | succ offset induction =>
      obtain ⟨width, rfl⟩ := Nat.exists_eq_succ_of_ne_zero (Nat.ne_zero_of_lt inside)
      have low := (memory address).toNat_lt
      have high : memory.load address (width + 1) / 256 = memory.load (address + 1) width := by
        rw [load]
        omega
      rw [Nat.pow_succ', ← Nat.div_div_eq_div_mul, high,
        induction (Nat.lt_of_succ_lt_succ inside), Nat.add_assoc, Nat.add_comm 1]

theorem load_store_same {value : Nat} (fits : value < 256 ^ width) :
    (memory.store address width value).load address width = value := by
  rw [load_eq_mod fun offset inside => store_inside inside, Nat.mod_eq_of_lt fits]

/-! ## Sequences of stores -/

theorem storeAll_append (memory : Memory) (first second : List Write) :
    memory.storeAll (first ++ second) = (memory.storeAll first).storeAll second :=
  List.foldl_append

theorem storeAll_nil (memory : Memory) : memory.storeAll [] = memory :=
  rfl

theorem storeAll_cons (memory : Memory) (write : Write) (writes : List Write) :
    memory.storeAll (write :: writes) =
      (memory.store write.address write.width write.value).storeAll writes :=
  rfl

theorem storeAll_outside {writes : List Write} {position : Nat}
    (outside : ∀ write ∈ writes, ¬write.Covers position) :
    memory.storeAll writes position = memory position := by
  induction writes generalizing memory with
  | nil => rfl
  | cons write writes induction =>
      have apart := outside write List.mem_cons_self
      have later := fun other member => outside other (List.mem_cons_of_mem _ member)
      rw [storeAll_cons, induction later]
      exact store_outside (by unfold Write.Covers at apart; omega)

/-- What is stored last at a place is what a load finds there. -/
theorem load_storeAll {before after : List Write} {write : Write}
    (fits : write.value < 256 ^ write.width)
    (apart : ∀ later ∈ after, later.Avoids write.address write.width) :
    (memory.storeAll (before ++ write :: after)).load write.address write.width =
      write.value := by
  rw [storeAll_append, storeAll_cons]
  have stored : ((memory.storeAll before).store write.address write.width write.value).load
      write.address write.width = write.value := load_store_same fits
  refine (load_congr fun offset inside => ?_).trans stored
  apply storeAll_outside
  intro later member covers
  have avoids := apart later member
  unfold Write.Covers at covers
  unfold Write.Avoids at avoids
  omega

end Memory

end Ugdr
