import Ugdr.Queue.Descriptors
import Ugdr.Worker.Datagram

/-! # Posting work requests

The checks of `wr_posting.cpp` on a work request and the stores with which an
accepted one is written into its slot.
-/

namespace Ugdr.Api

open Ugdr.Queue Ugdr.Worker

structure SendWr where
  wrId : UInt64
  /-- The array that `sg_list` points to, if it is not null. -/
  sgList : Option (Nat → SharedSge)
  numSge : Int32
  opcode : UInt32
  sendFlags : UInt32
  immData : UInt32
  remoteAddr : UInt64
  rkey : UInt32

structure RecvWr where
  wrId : UInt64
  sgList : Option (Nat → SharedSge)
  numSge : Int32

def validSgeList (numSge : Int32) (sgList : Option (Nat → SharedSge)) (maxSge : Nat) : Bool :=
  0 ≤ numSge.toInt ∧ numSge.toInt.toNat ≤ maxSge ∧ (numSge = 0 ∨ sgList.isSome)

def validSendWr (wr : SendWr) (maxSge : Nat) : Bool :=
  (wr.opcode.toNat = wrRdmaWrite ∨ wr.opcode.toNat = wrRdmaWriteWithImm) ∧
    wr.sendFlags &&& ~~~UInt32.ofNat sendSignaled = 0 ∧
    validSgeList wr.numSge wr.sgList maxSge

def validReceiveWr (wr : RecvWr) (maxSge : Nat) : Bool :=
  validSgeList wr.numSge wr.sgList maxSge

/-! ## Encoding -/

/-- A store of `width` bytes at an offset into the slot. -/
structure Store where
  offset : Nat
  width : Nat
  value : Nat
  deriving DecidableEq, Repr

/-- `destination[index] = {addr, length, lkey}` behind a header. -/
def storeSge (headerSize index : Nat) (sge : SharedSge) : List Store :=
  let offset := headerSize + index * sizeofSharedSge
  [⟨offset, 8, sge.address⟩, ⟨offset + 8, 4, sge.length⟩, ⟨offset + 12, 4, sge.lkey⟩]

/-- The loop over the entries, which an accepted work request has. -/
def storeSges (headerSize : Nat) (numSge : Int32) (sgList : Option (Nat → SharedSge)) :
    List Store :=
  match sgList with
  | none => []
  | some sges =>
      (List.range numSge.toInt.toNat).flatMap fun index =>
        storeSge headerSize index (sges index)

/-- `*header = {}` and the stores to the fields, then the entries. -/
def encodeSend (wr : SendWr) : List Store :=
  [⟨0, sizeofSendWqeHeader, 0⟩, ⟨0, 8, wr.wrId.toNat⟩, ⟨8, 8, wr.remoteAddr.toNat⟩,
    ⟨16, 4, wr.rkey.toNat⟩, ⟨20, 4, wr.opcode.toNat⟩, ⟨24, 4, wr.sendFlags.toNat⟩,
    ⟨28, 4, if wr.opcode.toNat = wrRdmaWriteWithImm then wr.immData.toNat else 0⟩,
    ⟨32, 4, wr.numSge.toInt.toNat⟩] ++
    storeSges sizeofSendWqeHeader wr.numSge wr.sgList

def encodeReceive (wr : RecvWr) : List Store :=
  [⟨0, sizeofReceiveWqeHeader, 0⟩, ⟨0, 8, wr.wrId.toNat⟩, ⟨8, 4, wr.numSge.toInt.toNat⟩] ++
    storeSges sizeofReceiveWqeHeader wr.numSge wr.sgList

/-- The store touches only the first `size` bytes. -/
def Store.Within (size : Nat) (store : Store) : Prop :=
  store.offset + store.width ≤ size

theorem storeSges_within {headerSize maxSge : Nat} {numSge : Int32}
    {sgList : Option (Nat → SharedSge)} (few : numSge.toInt.toNat ≤ maxSge) {store : Store}
    (member : store ∈ storeSges headerSize numSge sgList) :
    store.Within (headerSize + maxSge * sizeofSharedSge) := by
  unfold storeSges at member
  split at member
  · cases member
  · rename_i sges
    obtain ⟨index, inside, stored⟩ := List.mem_flatMap.mp member
    have below : index + 1 ≤ maxSge := Nat.le_trans (List.mem_range.mp inside) few
    have room : (index + 1) * sizeofSharedSge ≤ maxSge * sizeofSharedSge :=
      Nat.mul_le_mul_right _ below
    simp only [sizeofSharedSge] at room
    simp only [storeSge, sizeofSharedSge, List.mem_cons, List.not_mem_nil, or_false] at stored
    rcases stored with rfl | rfl | rfl <;> simp only [Store.Within, sizeofSharedSge] <;> omega

/-- An accepted send is stored in its header and `max_sge` entries. -/
theorem encodeSend_within {wr : SendWr} {maxSge : Nat} (valid : validSendWr wr maxSge = true)
    {store : Store} (member : store ∈ encodeSend wr) :
    store.Within (sizeofSendWqeHeader + maxSge * sizeofSharedSge) := by
  simp only [validSendWr, validSgeList, Bool.decide_and, Bool.and_eq_true, decide_eq_true_eq]
    at valid
  rcases List.mem_append.mp member with header | entry
  · simp only [List.mem_cons, List.not_mem_nil, or_false] at header
    rcases header with rfl | rfl | rfl | rfl | rfl | rfl | rfl | rfl <;>
      simp only [Store.Within, sizeofSendWqeHeader] <;> omega
  · exact storeSges_within valid.2.2.2.1 entry

theorem encodeReceive_within {wr : RecvWr} {maxSge : Nat}
    (valid : validReceiveWr wr maxSge = true) {store : Store}
    (member : store ∈ encodeReceive wr) :
    store.Within (sizeofReceiveWqeHeader + maxSge * sizeofSharedSge) := by
  simp only [validReceiveWr, validSgeList, Bool.decide_and, Bool.and_eq_true,
    decide_eq_true_eq] at valid
  rcases List.mem_append.mp member with header | entry
  · simp only [List.mem_cons, List.not_mem_nil, or_false] at header
    rcases header with rfl | rfl | rfl <;>
      simp only [Store.Within, sizeofReceiveWqeHeader] <;> omega
  · exact storeSges_within valid.2.1 entry

end Ugdr.Api
