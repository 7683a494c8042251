import Ugdr.Api.WrPosting
import Ugdr.Control.RecordOrigin
import Ugdr.Worker.HostileSlot

/-! # Containment of a WQE in its slot

The stride of a queue is computed from its number of scatter-gather entries. The
client writes a work request into one slot and the worker reads it from there, so
both stay inside as long as the stride covers the header and all entries.
-/

namespace Ugdr.Worker

open Ugdr.Queue Ugdr.Control Ugdr.Api Ugdr.Wire
open Ugdr.Control.QpService (WorkerQpView)

/-! ## Strides -/

/-- The size of a header with its entries, rounded up to the alignment of slots. -/
def roundedSlotSize (headerSize maxSge : Nat) : Nat :=
  (headerSize + maxSge * sizeofSharedSge + slotAlignment - 1) / slotAlignment * slotAlignment

/-- A stride is a multiple of the alignment that holds the header and all entries, and a
rounded size beyond 32 bits is refused. -/
structure StrideHolds (headerSize maxSge : Nat) : Prop where
  covers : ∀ stride, alignedSlotStride headerSize maxSge = .ok stride →
    stride % slotAlignment = 0 ∧ headerSize + maxSge * sizeofSharedSge ≤ stride
  refuses : 2 ^ 32 ≤ roundedSlotSize headerSize maxSge →
    alignedSlotStride headerSize maxSge = .error .eoverflow

/-- The mask keeps the bits from 6 to 31. -/
theorem and_slotMask (size : Nat) : size &&& slotMask = size / 64 % 2 ^ 26 * 64 := by
  have mask : slotMask = (2 ^ 26 - 1) <<< 6 := rfl
  have shifted : size / 64 % 2 ^ 26 * 64 = ((size >>> 6) &&& (2 ^ 26 - 1)) <<< 6 := by
    rw [Nat.and_two_pow_sub_one_eq_mod, Nat.shiftLeft_eq, Nat.shiftRight_eq_div_pow]
  rw [shifted, mask]
  apply Nat.eq_of_testBit_eq
  intro index
  rw [Nat.testBit_and, Nat.testBit_shiftLeft, Nat.testBit_shiftLeft, Nat.testBit_and,
    Nat.testBit_shiftRight]
  by_cases low : 6 ≤ index
  · rw [show 6 + (index - 6) = index by omega]
    simp [low]
  · simp [low]

/-- The guards never refuse a 32-bit number of entries: the rounded size loses its bits
from 32 on in the mask. -/
theorem alignedSlotStride_eq {headerSize maxSge : Nat} (small : headerSize ≤ 64)
    (width : maxSge < 2 ^ 32) :
    alignedSlotStride headerSize maxSge = .ok (roundedSlotSize headerSize maxSge % 2 ^ 32) := by
  have wrapped : (headerSize + maxSge * sizeofSharedSge + slotAlignment - 1) &&& slotMask =
      roundedSlotSize headerSize maxSge % 2 ^ 32 := by
    rw [and_slotMask, roundedSlotSize, slotAlignment]
    omega
  have below := Nat.mod_lt (roundedSlotSize headerSize maxSge) (Nat.two_pow_pos 32)
  rw [alignedSlotStride]
  simp only [wrapped]
  rw [if_neg, if_neg, if_neg]
  · omega
  · simp only [sizeMax, slotAlignment, sizeofSharedSge]
    omega
  · simp only [sizeMax, sizeofSharedSge]
    omega

theorem strideHolds_iff {headerSize maxSge : Nat} (small : headerSize ≤ 64)
    (width : maxSge < 2 ^ 32) :
    StrideHolds headerSize maxSge ↔
      headerSize + maxSge * sizeofSharedSge ≤ 2 ^ 32 - slotAlignment := by
  have stride := alignedSlotStride_eq small width
  have rounded : roundedSlotSize headerSize maxSge < 2 ^ 32 ↔
      headerSize + maxSge * sizeofSharedSge ≤ 2 ^ 32 - slotAlignment := by
    simp only [roundedSlotSize, slotAlignment]
    omega
  constructor
  · intro holds
    rw [← rounded, ← Nat.not_le]
    intro large
    have refused := holds.refuses large
    rw [stride] at refused
    cases refused
  · intro fits
    rw [Nat.mod_eq_of_lt (rounded.mpr fits)] at stride
    refine ⟨?_, fun large => absurd (rounded.mpr fits) (Nat.not_lt.mpr large)⟩
    intro other computed
    rw [stride] at computed
    injection computed with same
    rw [← same]
    simp only [roundedSlotSize, slotAlignment]
    omega

/-! ## Slots of the queue pairs -/

/-- For queue pairs with these numbers of entries: the strides hold what they are for,
accepted work requests are stored inside their slot, and the entries that `try_send`
reads of a slot at rest lie inside it. -/
structure SlotsContain (maxSendSge maxRecvSge : Nat) : Prop where
  sendStride : StrideHolds sizeofSendWqeHeader maxSendSge
  receiveStride : StrideHolds sizeofReceiveWqeHeader maxRecvSge
  posted : ∀ service : QpService, service.Reachable → ∀ qp ∈ service.qps.entries,
    qp.record.sq.maxSge = maxSendSge → qp.record.rq.maxSge = maxRecvSge →
    (∀ wr, validSendWr wr qp.record.sq.maxSge = true →
      ∀ store ∈ encodeSend wr, store.Within qp.record.sendQueue.slotStride) ∧
    (∀ wr, validReceiveWr wr qp.record.rq.maxSge = true →
      ∀ store ∈ encodeReceive wr, store.Within qp.record.receiveQueue.slotStride)
  inspected : ∀ service : QpService, service.Reachable → ∀ qpNum view,
    service.workerQpView qpNum = .ok view → view.maxSendSge = maxSendSge →
    ∀ reads wqe, SlotReads.Stable reads wqe → ∀ payloadBytes,
    ∀ iteration ∈ (inspectReads service view payloadBytes reads).iterations,
      sizeofSendWqeHeader + (iteration.1 + 1) * sizeofSharedSge ≤ view.sendQueue.slotStride

/-- A stride that holds covers the stores and entries of its slot. -/
theorem slotsContain_of_strides {maxSendSge maxRecvSge : Nat}
    (send : StrideHolds sizeofSendWqeHeader maxSendSge)
    (receive : StrideHolds sizeofReceiveWqeHeader maxRecvSge) :
    SlotsContain maxSendSge maxRecvSge := by
  refine ⟨send, receive, ?posted, ?inspected⟩
  case posted =>
    rintro service reachable qp member rfl rfl
    have sized := reachable.sized qp member
    refine ⟨fun wr valid store stored => ?_, fun wr valid store stored => ?_⟩
    · exact Nat.le_trans (encodeSend_within valid stored) (send.covers _ sized.send).2
    · exact Nat.le_trans (encodeReceive_within valid stored) (receive.covers _ sized.receive).2
  case inspected =>
    rintro service reachable qpNum view found rfl reads wqe stable payloadBytes iteration read
    obtain ⟨qp, member, -, -, -, entries, -, queue, -⟩ :=
      QpService.workerQpView_record reachable.valid found
    have sized := (reachable.sized qp member).send
    rw [← entries, ← queue] at sized
    have below := (soundThroughout_iff.mpr (stable.steady service view payloadBytes)
      iteration read).1
    have room : (iteration.1 + 1) * sizeofSharedSge ≤ view.maxSendSge * sizeofSharedSge :=
      Nat.mul_le_mul_right _ below
    exact Nat.le_trans (Nat.add_le_add_left room _) (send.covers _ sized).2

/-- Slots contain their WQEs exactly when the rounded sizes fit in 32 bits. -/
theorem slots_contain_iff (maxSendSge maxRecvSge : UInt32) :
    SlotsContain maxSendSge.toNat maxRecvSge.toNat ↔
      maxSendSge.toNat ≤ 268435449 ∧ maxRecvSge.toNat ≤ 268435451 := by
  have send : StrideHolds sizeofSendWqeHeader maxSendSge.toNat ↔ _ :=
    strideHolds_iff (by decide) maxSendSge.toNat_lt
  have receive : StrideHolds sizeofReceiveWqeHeader maxRecvSge.toNat ↔ _ :=
    strideHolds_iff (by decide) maxRecvSge.toNat_lt
  simp only [sizeofSendWqeHeader, sizeofReceiveWqeHeader, sizeofSharedSge, slotAlignment]
    at send receive
  constructor
  · intro contain
    have sendFits := send.mp contain.sendStride
    have receiveFits := receive.mp contain.receiveStride
    omega
  · rintro ⟨sendFits, receiveFits⟩
    exact slotsContain_of_strides (send.mpr (by omega)) (receive.mpr (by omega))

/-! ## A stride that lost its upper bits -/

/-- A queue pair with 268435454 entries for each send. -/
def wideQp : ControlRequest :=
  { method := 10
    objectIdentity := Loopback.pdIdentity
    payload :=
      encode 2 qpPayloadVersion ++ encode 2 0 ++ encode 8 Loopback.cqIdentity ++
        encode 8 Loopback.cqIdentity ++ encode 4 4 ++ encode 4 4 ++ encode 4 268435454 ++
        encode 4 4 ++ encode 4 qpTypeRc ++ encode 4 0 }

def wideService : QpService :=
  Execution.run QpService.step (QpService.create [⟨1, []⟩])
    (([{ method := 2, objectIdentity := 1 },
        { method := 4, objectIdentity := Loopback.contextIdentity },
        { method := 8, objectIdentity := Loopback.contextIdentity, length := 4 }, wideQp] :
      List ControlRequest).map fun request => .request 1 request Loopback.host)

def twoEntries : SendWr where
  wrId := 0
  sgList := some fun _ => {}
  numSge := 2
  opcode := 0
  sendFlags := 0
  immData := 0
  remoteAddr := 0
  rkey := 0

/-- The queue pair is accepted with slots of 64 bytes, and a work request with two
entries writes its last key at offset 68. -/
theorem wide_slot_overflows :
    wideService.Reachable ∧
      (∃ view, wideService.workerQpView 1 = .ok view ∧ view.maxSendSge = 268435454 ∧
        view.sendQueue.slotStride = 64 ∧ validSendWr twoEntries view.maxSendSge = true ∧
        ⟨68, 4, 0⟩ ∈ encodeSend twoEntries) ∧
      ¬ SlotsContain 268435454 4 := by
  refine ⟨⟨_, _, rfl⟩, ⟨_, rfl, rfl, rfl, by decide, by decide⟩, ?_⟩
  intro contain
  have fits := (strideHolds_iff (by decide) (by decide)).mp contain.sendStride
  exact absurd fits (by decide)

end Ugdr.Worker
