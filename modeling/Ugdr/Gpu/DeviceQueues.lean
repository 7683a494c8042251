import Ugdr.Foundation.RingLog
import Ugdr.Gpu.CopyHost

/-! # Device queues

Which capacities, warp counts and batches the queues accept, and how their tasks are copied
and answered.
-/

namespace Ugdr.Gpu

def isSupportedDeviceBatch (value : Nat) : Bool :=
  value = 1 ∨ value = 2 ∨ value = 4 ∨ value = 8 ∨ value = 16 ∨ value = 32

def isSupportedCopyWarps (value : Nat) : Bool :=
  value = 4 ∨ value = 8 ∨ value = 16 ∨ value = 32

def dynamicShardedSpscAllocationSize (capacity laneCount : Nat) : Option Nat :=
  -- A task slot and a completion slot.
  let perSlotBytes := 32 + 16
  if isSupportedCopyWarps laneCount = false ∨ isPowerOfTwo capacity = false ∨
      capacity < laneCount ∨ capacity % laneCount ≠ 0 ∨
      isPowerOfTwo (capacity / laneCount) = false then
    none
  else
    let controlBytes := laneCount * 64
    if (2 ^ 64 - 1 - controlBytes) / perSlotBytes < capacity then
      none
    else
      some (controlBytes + capacity * perSlotBytes)

def staticPartitionSpscAllocationSize (capacity copyWarps : Nat) : Option Nat :=
  let perSlotBytes := 32 + 32
  if isSupportedCopyWarps copyWarps = false ∨ isPowerOfTwo capacity = false ∨
      capacity < copyWarps ∨ capacity &&& (copyWarps - 1) ≠ 0 then
    none
  else if (2 ^ 64 - 1 - 64) / perSlotBytes < capacity then
    none
  else
    some (64 + capacity * perSlotBytes)

/-- `kWarpSpecializedMetaBatch`. -/
def warpSpecializedMetaBatch : Nat :=
  32

def isSupportedSharedQueueDepth (value : Nat) : Bool :=
  value = 2 ∨ value = 4 ∨ value = 8 ∨ value = 16

def isSupportedPipelineCopyWarps (value : Nat) : Bool :=
  2 ≤ value ∧ value ≤ 30 ∧ (value - 2) % 4 = 0

/-- The bytes of host memory and of shared memory. -/
def warpSpecializedPipelineAllocationSize (capacity copyWarps sharedQueueDepth : Nat) :
    Option (Nat × Nat) :=
  -- A task slot and a completion slot.
  let perHostSlotBytes := 32 + 16
  let perSharedSlotBytes := 48 + 32
  if isSupportedPipelineCopyWarps copyWarps = false then
    none
  else
    let requiredQueueDepth := (warpSpecializedMetaBatch + copyWarps - 1) / copyWarps
    if isPowerOfTwo capacity = false ∨ capacity < warpSpecializedMetaBatch ∨
        isSupportedSharedQueueDepth sharedQueueDepth = false ∨ 16 < sharedQueueDepth ∨
        sharedQueueDepth < requiredQueueDepth ∨
        (2 ^ 64 - 1 - 64) / perHostSlotBytes < capacity then
      none
    else
      let slotCount := copyWarps * sharedQueueDepth
      if (2 ^ 64 - 1 - 64) / perSharedSlotBytes < slotCount then
        none
      else
        let hostBytes := 64 + capacity * perHostSlotBytes
        let sharedBytes := slotCount * perSharedSlotBytes
        if sharedBytes ≤ 48 * 1024 then some (hostBytes, sharedBytes) else none

/-! ## Tasks -/

/-- A copy that was made, for the task of which index and by which warp. -/
structure CopyRecord where
  warp : Nat
  index : Nat
  task : CopyTask
  deriving DecidableEq, Repr

/-- The completion that a copied task is answered with. -/
def completionOf (task : CopyTask) : CopyCompletion :=
  ⟨task.taskId, .success⟩

/-- Copies of sixteen bytes, one behind the other. -/
def adjacentTask (index : Nat) : CopyTask :=
  ⟨index, 4096 + 16 * index, 16, 16 * index⟩

/-! ## What the sizes say -/

theorem isPowerOfTwo_iff (value : Nat) : isPowerOfTwo value = true ↔ ∃ bits, value = 2 ^ bits := by
  simp only [isPowerOfTwo, decide_eq_true_eq]
  exact Nat.ne_zero_and_sub_one_eq_zero_iff_isPowerOfTwo

/-- The mask of a power of two is the remainder. -/
theorem and_mask {size : Nat} (power : isPowerOfTwo size = true) (index : Nat) :
    index &&& (size - 1) = index % size := by
  obtain ⟨bits, rfl⟩ := (isPowerOfTwo_iff size).mp power
  exact Nat.and_two_pow_sub_one_eq_mod index bits

theorem isPowerOfTwo_pos {size : Nat} (power : isPowerOfTwo size = true) : 0 < size := by
  obtain ⟨bits, rfl⟩ := (isPowerOfTwo_iff size).mp power
  exact Nat.two_pow_pos bits

theorem isSupportedCopyWarps_cases {value : Nat} (supported : isSupportedCopyWarps value = true) :
    value = 4 ∨ value = 8 ∨ value = 16 ∨ value = 32 :=
  of_decide_eq_true supported

theorem isSupportedDeviceBatch_bounds {value : Nat}
    (supported : isSupportedDeviceBatch value = true) : 0 < value ∧ value ≤ 32 := by
  have known := of_decide_eq_true supported
  omega

end Ugdr.Gpu
