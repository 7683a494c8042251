import Ugdr.Errno
import Mathlib.Data.Nat.Bitwise

/-! # Queue descriptors

Slot layouts of the shared queues, the slot stride computed from the number of
scatter-gather entries, and the checks made when a ring is created.
-/

namespace Ugdr.Queue

inductive QueueKind
  | send
  | receive
  | completion
  deriving DecidableEq, Repr

def QueueKind.code : QueueKind → Nat
  | send => 1
  | receive => 2
  | completion => 3

structure QueueDescriptor where
  kind : QueueKind
  capacity : Nat
  slotStride : Nat
  deriving DecidableEq, Repr

structure SharedSge where
  address : Nat := 0
  length : Nat := 0
  lkey : Nat := 0
  deriving DecidableEq, Repr

structure SendWqeHeader where
  wrId : Nat := 0
  remoteAddress : Nat := 0
  rkey : Nat := 0
  opcode : Nat := 0
  sendFlags : Nat := 0
  immediateData : Nat := 0
  sgeCount : Nat := 0
  deriving DecidableEq, Repr

structure ReceiveWqeHeader where
  wrId : Nat := 0
  sgeCount : Nat := 0
  deriving DecidableEq, Repr

structure CompletionEntry where
  wrId : Nat := 0
  status : Nat := 0
  opcode : Nat := 0
  byteLength : Nat := 0
  immediateData : Nat := 0
  qpNum : Nat := 0
  flags : Nat := 0
  deriving DecidableEq, Repr

/-! ## Slot strides -/

def sizeofSharedSge : Nat := 16

def sizeofSendWqeHeader : Nat := 40

def sizeofReceiveWqeHeader : Nat := 16

def slotAlignment : Nat := 64

def sizeMax : Nat := 2 ^ 64 - 1

/-- The mask `~(kSlotAlignment - 1U)`. Both operands are 32-bit, so the complement
is taken in 32 bits and then zero-extended to the width of `std::size_t`. -/
def slotMask : Nat := 2 ^ 32 - 1 - (slotAlignment - 1)

def alignedSlotStride (headerSize maxSge : Nat) : Except Errno Nat :=
  if (sizeMax - headerSize) / sizeofSharedSge < maxSge then
    .error .eoverflow
  else
    let raw := headerSize + maxSge * sizeofSharedSge
    if sizeMax - (slotAlignment - 1) < raw then
      .error .eoverflow
    else
      let aligned := (raw + slotAlignment - 1) &&& slotMask
      if 2 ^ 32 - 1 < aligned then
        .error .eoverflow
      else
        .ok aligned

def sendSlotStride (maxSge : Nat) : Except Errno Nat :=
  alignedSlotStride sizeofSendWqeHeader maxSge

def receiveSlotStride (maxSge : Nat) : Except Errno Nat :=
  alignedSlotStride sizeofReceiveWqeHeader maxSge

def completionSlotStride : Nat := slotAlignment

/-! ## Ring creation -/

def sharedRingCacheLine : Nat := 64

def sizeofSharedRingHeader : Nat := 3 * sharedRingCacheLine

/-- Every `QueueKind` is in range, so only the numbers are checked. -/
def validDescriptor (descriptor : QueueDescriptor) : Bool :=
  descriptor.capacity ≠ 0 ∧ descriptor.slotStride ≠ 0 ∧
    descriptor.slotStride % sharedRingCacheLine = 0

def sharedRingMappingSize (descriptor : QueueDescriptor) (pageSize : Nat) :
    Except Errno Nat :=
  if pageSize = 0 ∨ validDescriptor descriptor = false then
    .error .einval
  else if (sizeMax - sizeofSharedRingHeader) / descriptor.slotStride <
      descriptor.capacity then
    .error .eoverflow
  else
    let raw := sizeofSharedRingHeader + descriptor.capacity * descriptor.slotStride
    let remainder := raw % pageSize
    if remainder ≠ 0 ∧ sizeMax - (pageSize - remainder) < raw then
      .error .eoverflow
    else
      .ok (if remainder = 0 then raw else raw + pageSize - remainder)

/-- What the operating system answers while a ring is created: `sysconf`, and the
chain of `memfd_create`, `ftruncate`, `mmap` and sealing for a descriptor. -/
structure RingSystemCalls where
  pageSize : Except Errno Nat
  mapMemory : QueueDescriptor → Nat → Status
  duplicateFd : QueueDescriptor → Status

/-- `create_shared_ring` for a fresh ring object. The created ring is known by
its descriptor. -/
def createSharedRing (system : RingSystemCalls) (descriptor : QueueDescriptor) :
    Except Errno QueueDescriptor :=
  match system.pageSize with
  | .error status => .error status
  | .ok pageSize =>
      match sharedRingMappingSize descriptor pageSize with
      | .error status => .error status
      | .ok mappingSize =>
          if 2 ^ 63 - 1 < mappingSize then
            .error .eoverflow
          else
            match system.mapMemory descriptor mappingSize with
            | some status => .error status
            | none => .ok descriptor

/-- The offset of a slot in the mapping, `slot_at`. -/
def slotAt (descriptor : QueueDescriptor) (index : Nat) : Nat :=
  sizeofSharedRingHeader + index * descriptor.slotStride

theorem createSharedRing_eq_ok {system : RingSystemCalls} {descriptor ring : QueueDescriptor}
    (created : createSharedRing system descriptor = .ok ring) :
    ring = descriptor ∧ validDescriptor descriptor = true := by
  unfold createSharedRing at created
  split at created
  · cases created
  · split at created
    · cases created
    · rename_i pageSize _ mappingSize size
      have valid : validDescriptor descriptor = true := by
        by_contra invalid
        simp [sharedRingMappingSize, Bool.eq_false_iff.mpr invalid] at size
      split at created
      · cases created
      · split at created
        · cases created
        · exact ⟨by injection created with same; exact same.symm, valid⟩

end Ugdr.Queue
