import Ugdr.Api.WrPosting
import Ugdr.Foundation.Memory
import Ugdr.Queue.RingCalls
import Mathlib.Data.List.TakeDrop
import Mathlib.Data.List.TakeWhile

/-! # Posting chains

`post_chain` walks a chain of work requests over the slots that a ring gives out and
publishes those it filled. The slots lie one behind the other in memory, so a work request
that does not fit into its slot runs into the next one.
-/

namespace Ugdr.Api

open Ugdr.Queue Ugdr.Worker Machine

/-! ## Slots in memory -/

/-- The bytes from `slot_at(0)` on. -/
def slotMemory (stride : Nat) (ring : RingSystem UInt8) : Memory := fun address =>
  ring.slots (address / stride) (address % stride)

def withSlotMemory (stride : Nat) (memory : Memory) (ring : RingSystem UInt8) :
    RingSystem UInt8 :=
  { ring with
    slots := fun slot offset =>
      if offset < stride then memory (slot * stride + offset) else ring.slots slot offset }

def Store.write (base : Nat) (store : Store) : Memory.Write where
  address := base + store.offset
  width := store.width
  value := store.value

/-! ## The chain -/

/-- What `post_chain` is instantiated with, and how a slot is read back. -/
structure Posting (Wr Wqe : Type) where
  kind : QueueKind
  headerSize : Nat
  validator : Wr → Nat → Bool
  encoder : Wr → List Store
  /-- What the slot of a work request is to hold. -/
  contents : Wr → Wqe
  /-- The slot that starts at an address, as the other side reads it. -/
  read : Memory → Nat → Wqe

/-- The local variables of `post_chain`. -/
structure Filling (Wr : Type) where
  accepted : Nat := 0
  /-- The rest of the chain, from `current` on. -/
  current : List Wr
  memory : Memory

/-- The outcome of a call: its status, `*bad_wr` as the rest of the chain if it was written,
and the ring. -/
structure Posted (Wr : Type) where
  status : Status
  badWr : Option (List Wr)
  ring : RingSystem UInt8

section

variable {Wr Wqe : Type} (posting : Posting Wr Wqe) (descriptor : QueueDescriptor) (maxSge : Nat)

/-- The writes of `encoder` into a slot. -/
def slotWrites (slot : Nat) (wr : Wr) : List Memory.Write :=
  (posting.encoder wr).map (Store.write (slot * descriptor.slotStride))

/-- `fill_span`, over the slots of the span. The result is false at an invalid work
request. -/
def fillSpan : List Nat → Filling Wr → Bool × Filling Wr
  | [], filling => (true, filling)
  | slot :: slots, filling =>
      match filling.current with
      | [] => (true, filling)
      | wr :: rest =>
          if posting.validator wr maxSge = false then
            (false, filling)
          else
            fillSpan slots
              { accepted := filling.accepted + 1
                current := rest
                memory := filling.memory.storeAll (slotWrites posting descriptor slot wr) }

/-- Both calls of `fill_span` for a batch. -/
def fillBatch (batch : SlotBatch) (filling : Filling Wr) : Bool × Filling Wr :=
  match fillSpan posting descriptor maxSge batch.first.slots filling with
  | (true, filling) => fillSpan posting descriptor maxSge batch.second.slots filling
  | (false, filling) => (false, filling)

/-- The loop of `post_chain`. -/
def postBatches : Nat → List Wr → RingSystem UInt8 → Option (Posted Wr)
  | 0, _, _ => none
  | _ + 1, [], ring => some ⟨none, none, ring⟩
  | fuel + 1, wr :: rest, ring =>
      match ring.invoke descriptor.capacity .producer (.acquire descriptor.capacity) with
      | (.error status, ring) =>
          some ⟨some (if status = .eagain then .enomem else status), some (wr :: rest), ring⟩
      | (.ok batch, ring) =>
          let memory := slotMemory descriptor.slotStride ring
          match fillBatch posting descriptor maxSge batch { current := wr :: rest, memory } with
          | (valid, filling) =>
              match (withSlotMemory descriptor.slotStride filling.memory ring).invoke
                  descriptor.capacity .producer (.commit filling.accepted) with
              | (.error status, ring) => some ⟨some status, some filling.current, ring⟩
              | (.ok _, ring) =>
                  if valid = false then
                    some ⟨some .einval, some filling.current, ring⟩
                  else
                    postBatches fuel filling.current ring

/-- `post_chain` behind the check of the queue kind. No chain is a null pointer. -/
def postChain (fuel : Nat) (chain : List Wr) (ring : RingSystem UInt8) : Option (Posted Wr) :=
  if descriptor.kind ≠ posting.kind then
    some ⟨some .einval, none, ring⟩
  else
    match chain with
    | [] => some ⟨some .einval, none, ring⟩
    | wr :: rest => postBatches posting descriptor maxSge fuel (wr :: rest) ring

end

/-! ## Send and receive -/

/-- A work request whose entries are `ugdr_sge`s. -/
def EntriesFit (sgList : Option (Nat → SharedSge)) : Prop :=
  ∀ sges, sgList = some sges → ∀ index,
    (sges index).address < 2 ^ 64 ∧ (sges index).length < 2 ^ 32 ∧ (sges index).lkey < 2 ^ 32

structure UgdrSendWr extends SendWr where
  entries_fit : EntriesFit sgList

structure UgdrRecvWr extends RecvWr where
  entries_fit : EntriesFit sgList

/-- `sg_list[0], …, sg_list[num_sge - 1]`. -/
def entries (numSge : Int32) (sgList : Option (Nat → SharedSge)) : List SharedSge :=
  match sgList with
  | none => []
  | some sges => (List.range numSge.toInt.toNat).map sges

def readSge (memory : Memory) (address : Nat) : SharedSge where
  address := memory.load address 8
  length := memory.load (address + 8) 4
  lkey := memory.load (address + 12) 4

/-- The array of entries behind a header. -/
def readSges (memory : Memory) (address count : Nat) : List SharedSge :=
  (List.range count).map fun index => readSge memory (address + index * sizeofSharedSge)

def readSendHeader (memory : Memory) (base : Nat) : SendWqeHeader where
  wrId := memory.load base 8
  remoteAddress := memory.load (base + 8) 8
  rkey := memory.load (base + 16) 4
  opcode := memory.load (base + 20) 4
  sendFlags := memory.load (base + 24) 4
  immediateData := memory.load (base + 28) 4
  sgeCount := memory.load (base + 32) 4

def readReceiveHeader (memory : Memory) (base : Nat) : ReceiveWqeHeader where
  wrId := memory.load base 8
  sgeCount := memory.load (base + 8) 4

def sendPosting : Posting UgdrSendWr (SendWqeHeader × List SharedSge) where
  kind := .send
  headerSize := sizeofSendWqeHeader
  validator wr := validSendWr wr.toSendWr
  encoder wr := encodeSend wr.toSendWr
  contents wr :=
    ({ wrId := wr.wrId.toNat
       remoteAddress := wr.remoteAddr.toNat
       rkey := wr.rkey.toNat
       opcode := wr.opcode.toNat
       sendFlags := wr.sendFlags.toNat
       immediateData := if wr.opcode.toNat = wrRdmaWriteWithImm then wr.immData.toNat else 0
       sgeCount := wr.numSge.toInt.toNat },
      entries wr.numSge wr.sgList)
  read memory base :=
    let header := readSendHeader memory base
    (header, readSges memory (base + sizeofSendWqeHeader) header.sgeCount)

def receivePosting : Posting UgdrRecvWr (ReceiveWqeHeader × List SharedSge) where
  kind := .receive
  headerSize := sizeofReceiveWqeHeader
  validator wr := validReceiveWr wr.toRecvWr
  encoder wr := encodeReceive wr.toRecvWr
  contents wr :=
    ({ wrId := wr.wrId.toNat, sgeCount := wr.numSge.toInt.toNat }, entries wr.numSge wr.sgList)
  read memory base :=
    let header := readReceiveHeader memory base
    (header, readSges memory (base + sizeofReceiveWqeHeader) header.sgeCount)

def postSendChain := postChain sendPosting

def postReceiveChain := postChain receivePosting

/-- The laws that connect the parts of a posting, with the space of `maxSge` entries. -/
structure Posting.Lawful {Wr Wqe : Type} (posting : Posting Wr Wqe) (maxSge : Nat) : Prop where
  within : ∀ wr, posting.validator wr maxSge = true → ∀ store ∈ posting.encoder wr,
    store.Within (posting.headerSize + maxSge * sizeofSharedSge)
  read_encoder : ∀ wr, posting.validator wr maxSge = true → ∀ (memory : Memory) base,
    posting.read (memory.storeAll ((posting.encoder wr).map (Store.write base))) base =
      posting.contents wr
  read_congr : ∀ wr, posting.validator wr maxSge = true → ∀ (memory other : Memory) base,
    posting.read memory base = posting.contents wr →
    (∀ offset < posting.headerSize + maxSge * sizeofSharedSge,
      other (base + offset) = memory (base + offset)) →
    posting.read other base = posting.contents wr

/-! ## Filling slots -/

section

variable {Wr Wqe : Type} {posting : Posting Wr Wqe} {descriptor : QueueDescriptor} {maxSge : Nat}

/-- The work requests before the first invalid one. -/
def validPart (posting : Posting Wr Wqe) (maxSge : Nat) (chain : List Wr) : List Wr :=
  chain.takeWhile fun wr => posting.validator wr maxSge

/-- The writes that fill the slots, one after the other. -/
def chainWrites (posting : Posting Wr Wqe) (descriptor : QueueDescriptor) (slots : List Nat)
    (chain : List Wr) : List Memory.Write :=
  (slots.zip chain).flatMap fun pair => slotWrites posting descriptor pair.1 pair.2

theorem validPart_length_le (chain : List Wr) :
    (validPart posting maxSge chain).length ≤ chain.length :=
  (List.takeWhile_prefix _).length_le

/-- `fill_span` stops at the end of the span, at the end of the chain or at an invalid work
request. -/
theorem fillSpan_eq (slots : List Nat) (filling : Filling Wr) :
    let valid := validPart posting maxSge filling.current
    let count := min slots.length valid.length
    fillSpan posting descriptor maxSge slots filling =
      (decide (slots.length ≤ valid.length ∨ filling.current.length = valid.length),
        { accepted := filling.accepted + count
          current := filling.current.drop count
          memory := filling.memory.storeAll (chainWrites posting descriptor slots valid) }) := by
  induction slots generalizing filling with
  | nil => simp [fillSpan, chainWrites, Memory.storeAll]
  | cons slot slots induction =>
      obtain ⟨accepted, current, memory⟩ := filling
      cases current with
      | nil => simp [fillSpan, validPart, chainWrites, Memory.storeAll]
      | cons wr rest =>
          cases valid : posting.validator wr maxSge with
          | false => simp [fillSpan, validPart, valid, chainWrites, Memory.storeAll]
          | true =>
              have same : validPart posting maxSge (wr :: rest) =
                  wr :: validPart posting maxSge rest := List.takeWhile_cons_of_pos valid
              have writes : chainWrites posting descriptor (slot :: slots)
                  (wr :: validPart posting maxSge rest) =
                    slotWrites posting descriptor slot wr ++
                      chainWrites posting descriptor slots (validPart posting maxSge rest) := rfl
              simp only [fillSpan, valid, Bool.true_eq_false, if_false, induction, same,
                List.length_cons, writes, Memory.storeAll_append]
              rw [Nat.add_min_add_right, List.drop_succ_cons, Nat.add_assoc, Nat.add_comm 1]
              simp only [Nat.add_le_add_iff_right, Nat.add_right_cancel_iff]

theorem fillSpan_append (first second : List Nat) (filling : Filling Wr) :
    fillSpan posting descriptor maxSge (first ++ second) filling =
      match fillSpan posting descriptor maxSge first filling with
      | (true, filling) => fillSpan posting descriptor maxSge second filling
      | (false, filling) => (false, filling) := by
  induction first generalizing filling with
  | nil => rfl
  | cons slot slots induction =>
      obtain ⟨accepted, current, memory⟩ := filling
      cases current with
      | nil => cases second <;> rfl
      | cons wr rest =>
          cases valid : posting.validator wr maxSge with
          | false => simp [fillSpan, valid]
          | true => simpa [fillSpan, valid] using induction _

theorem fillBatch_eq (batch : SlotBatch) (filling : Filling Wr) :
    fillBatch posting descriptor maxSge batch filling =
      fillSpan posting descriptor maxSge batch.slots filling :=
  (fillSpan_append _ _ _).symm

theorem valid_of_mem_validPart {chain : List Wr} {wr : Wr}
    (member : wr ∈ validPart posting maxSge chain) : posting.validator wr maxSge = true :=
  List.mem_takeWhile_imp (p := fun wr => posting.validator wr maxSge) member

end

/-! ## Filled slots -/

section

variable {Wr Wqe : Type} {posting : Posting Wr Wqe} {descriptor : QueueDescriptor} {maxSge : Nat}

theorem slotMemory_withSlotMemory {stride : Nat} (positive : 0 < stride) (memory : Memory)
    (ring : RingSystem UInt8) :
    slotMemory stride (withSlotMemory stride memory ring) = memory := by
  funext address
  simp only [slotMemory, withSlotMemory]
  rw [if_pos (Nat.mod_lt address positive), Nat.div_add_mod']

variable (lawful : posting.Lawful maxSge)
  (fits : posting.headerSize + maxSge * sizeofSharedSge ≤ descriptor.slotStride)

include lawful fits

theorem slot_of_slotWrites {slot position : Nat} {wr : Wr}
    (valid : posting.validator wr maxSge = true) {write : Memory.Write}
    (member : write ∈ slotWrites posting descriptor slot wr) (covers : write.Covers position) :
    position / descriptor.slotStride = slot := by
  obtain ⟨store, stored, rfl⟩ := List.mem_map.mp member
  have inside := lawful.within wr valid store stored
  simp only [Memory.Write.Covers, Store.write] at covers
  simp only [Store.Within] at inside
  apply Nat.div_eq_of_lt_le
  · omega
  · rw [Nat.add_one_mul]
    omega

/-- Only the slots that are filled change. -/
theorem chainWrites_outside {slots : List Nat} {chain : List Wr} {memory : Memory}
    {position : Nat} (valid : ∀ wr ∈ chain, posting.validator wr maxSge = true)
    (outside : position / descriptor.slotStride ∉ slots.take chain.length) :
    memory.storeAll (chainWrites posting descriptor slots chain) position = memory position := by
  apply Memory.storeAll_outside
  intro write member covers
  obtain ⟨⟨slot, wr⟩, paired, member⟩ := List.mem_flatMap.mp member
  have same := slot_of_slotWrites lawful fits (valid wr (List.of_mem_zip paired).2) member covers
  obtain ⟨index, found⟩ := List.mem_iff_getElem?.mp paired
  obtain ⟨atSlot, atChain⟩ := List.getElem?_zip_eq_some.mp found
  have inside := (List.getElem?_eq_some_iff.mp atChain).1
  refine outside ?_
  rw [same]
  exact List.mem_of_getElem? ((List.getElem?_take_of_lt inside).trans atSlot)

/-- Every filled slot reads back as its work request. -/
theorem read_chainWrites {slots : List Nat} {chain : List Wr} (memory : Memory)
    (valid : ∀ wr ∈ chain, posting.validator wr maxSge = true) (distinct : slots.Nodup)
    {index slot : Nat} {wr : Wr} (atSlot : slots[index]? = some slot)
    (atChain : chain[index]? = some wr) :
    posting.read (memory.storeAll (chainWrites posting descriptor slots chain))
      (slot * descriptor.slotStride) = posting.contents wr := by
  obtain ⟨before, after, slotsSplit, length⟩ :
      ∃ before after, slots = before ++ slot :: after ∧ before.length = index := by
    obtain ⟨inside, same⟩ := List.getElem?_eq_some_iff.mp atSlot
    refine ⟨slots.take index, slots.drop (index + 1), ?_, List.length_take_of_le inside.le⟩
    rw [← same, List.cons_getElem_drop_succ, List.take_append_drop]
  obtain ⟨earlier, later, chainSplit, sameLength⟩ :
      ∃ earlier later, chain = earlier ++ wr :: later ∧ earlier.length = index := by
    obtain ⟨inside, same⟩ := List.getElem?_eq_some_iff.mp atChain
    refine ⟨chain.take index, chain.drop (index + 1), ?_, List.length_take_of_le inside.le⟩
    rw [← same, List.cons_getElem_drop_succ, List.take_append_drop]
  have writes : chainWrites posting descriptor slots chain =
      chainWrites posting descriptor before earlier ++
        (slotWrites posting descriptor slot wr ++
          chainWrites posting descriptor after later) := by
    rw [slotsSplit, chainSplit, chainWrites, List.zip_append (length.trans sameLength.symm),
      List.flatMap_append]
    rfl
  have own : posting.validator wr maxSge = true := valid wr (List.mem_of_getElem? atChain)
  have stored := lawful.read_encoder wr own
    (memory.storeAll (chainWrites posting descriptor before earlier))
    (slot * descriptor.slotStride)
  rw [writes, Memory.storeAll_append, Memory.storeAll_append]
  refine lawful.read_congr wr own _ _ _ stored fun offset inside => ?_
  apply chainWrites_outside lawful fits
  · intro other member
    exact valid other (chainSplit ▸ by simp [member])
  · intro member
    have same : (slot * descriptor.slotStride + offset) / descriptor.slotStride = slot := by
      apply Nat.div_eq_of_lt_le
      · omega
      · rw [Nat.add_one_mul]
        omega
    rw [same] at member
    rw [slotsSplit] at distinct
    exact (List.nodup_cons.mp (List.nodup_append.mp distinct).2.1).1 (List.mem_of_mem_take member)

end

/-! ## One batch -/

/-- The producer of a ring that has no call and no reservation open. -/
structure ProducerReady (ring : RingSystem UInt8) : Prop where
  idle : ring.calls .producer = none
  closed : (ring.endpoints .producer).held = 0

/-- The first `count` of `slots` were filled and published. -/
structure Filled (stride : Nat) (ring next : RingSystem UInt8) (slots : List Nat) (count : Nat)
    (memory : Memory) : Prop where
  frame : RingSystem.ConsumerFrame ring next
  published : next.published = ring.published ++
    (slots.take count).map fun slot => (slot, next.slots slot)
  memory : slotMemory stride next = memory
  ready : ProducerReady next

section

variable {Wr Wqe : Type} (posting : Posting Wr Wqe) {descriptor : QueueDescriptor} (maxSge : Nat)
  {ring : RingSystem UInt8}

/-- Without a free slot the call ends. -/
theorem postBatches_full (positive : 0 < descriptor.capacity)
    (small : descriptor.capacity ≤ 2 ^ 31)
    (invariant : RingSystem.Invariant descriptor.capacity ring) (ready : ProducerReady ring)
    (full : ring.released.length + descriptor.capacity = ring.published.length) (fuel : Nat)
    (wr : Wr) (rest : List Wr) :
    ∃ next, RingSystem.Reserved ring next 0 ∧
      postBatches posting descriptor maxSge (fuel + 1) (wr :: rest) ring =
        some ⟨some .enomem, some (wr :: rest), next⟩ := by
  rcases RingSystem.invoke_reserve positive small invariant ready.closed with
    ⟨-, refused, reserved⟩ | ⟨room, -⟩
  · refine ⟨_, reserved, ?_⟩
    rw [postBatches]
    generalize ring.invoke _ _ _ = answer at refused reserved
    obtain ⟨result, next⟩ := answer
    subst refused
    rfl
  · omega

/-- A batch takes the valid work requests that come first, as many as there are free
slots. -/
theorem postBatches_batch (positive : 0 < descriptor.capacity)
    (small : descriptor.capacity ≤ 2 ^ 31) (stride : 0 < descriptor.slotStride)
    (invariant : RingSystem.Invariant descriptor.capacity ring) (ready : ProducerReady ring)
    {free : Nat} (freeSlots :
      free = ring.released.length + descriptor.capacity - ring.published.length)
    (room : free ≠ 0) (fuel : Nat) (wr : Wr) (rest : List Wr) {slots : List Nat}
    {valid : List Wr} {count : Nat}
    (slotsEq : slots = window descriptor.capacity ring.published.length free)
    (validEq : valid = validPart posting maxSge (wr :: rest))
    (countEq : count = min free valid.length) :
    ∃ reserved next, RingSystem.Reserved ring reserved free ∧ reserved.handed .producer = slots ∧
      reserved = (ring.invoke descriptor.capacity .producer
        (.acquire descriptor.capacity)).2 ∧
      next = ((withSlotMemory descriptor.slotStride
        ((slotMemory descriptor.slotStride ring).storeAll
          (chainWrites posting descriptor slots valid)) reserved).invoke
            descriptor.capacity .producer (.commit count)).2 ∧
      Filled descriptor.slotStride ring next slots count
        ((slotMemory descriptor.slotStride ring).storeAll
          (chainWrites posting descriptor slots valid)) ∧
      postBatches posting descriptor maxSge (fuel + 1) (wr :: rest) ring =
        if free ≤ valid.length ∨ (wr :: rest).length = valid.length then
          postBatches posting descriptor maxSge fuel ((wr :: rest).drop count) next
        else
          some ⟨some .einval, some ((wr :: rest).drop count), next⟩ := by
  rcases RingSystem.invoke_reserve positive small invariant ready.closed with
    ⟨full, -⟩ | ⟨-, batch, given, batchSlots, handed, reserved⟩
  · omega
  rw [← freeSlots, ← slotsEq] at batchSlots
  rw [← freeSlots] at reserved
  generalize answer :
    ring.invoke descriptor.capacity .producer (.acquire descriptor.capacity) = called
    at given handed reserved
  obtain ⟨result, held⟩ := called
  subst given
  dsimp only at handed reserved
  have sameMemory : slotMemory descriptor.slotStride held =
      slotMemory descriptor.slotStride ring := by
    funext address
    rw [slotMemory, slotMemory, reserved.slots]
  generalize stored : (slotMemory descriptor.slotStride ring).storeAll
    (chainWrites posting descriptor slots valid) = memory
  obtain ⟨⟨nothing, accepted⟩, done⟩ := RingSystem.invoke_publish descriptor.capacity
    (withSlotMemory descriptor.slotStride memory held) count
    (by rw [withSlotMemory, reserved.held]; exact room)
    (by rw [withSlotMemory, reserved.held, countEq]; exact Nat.min_le_left _ _)
  refine ⟨held, _, reserved, handed.trans batchSlots, rfl, rfl, ?_, ?_⟩
  · constructor
    · exact reserved.frame.trans ⟨done.frame.word, done.frame.endpoint, done.frame.call,
        done.frame.handed, done.frame.peeked, done.frame.released⟩
    · rw [done.published, done.slots]
      simp only [withSlotMemory]
      rw [reserved.published, handed, batchSlots]
    · refine Eq.trans ?_ (slotMemory_withSlotMemory stride memory held)
      funext address
      rw [slotMemory, done.slots]
      rfl
    · exact ⟨done.idle, done.held⟩
  · rw [postBatches, answer]
    have length : slots.length = free := by rw [slotsEq, window_length]
    simp only [fillBatch_eq, fillSpan_eq, batchSlots, length, sameMemory, ← validEq, ← countEq,
      stored, Nat.zero_add]
    generalize (withSlotMemory descriptor.slotStride memory held).invoke descriptor.capacity
      .producer (.commit count) = published at accepted
    obtain ⟨outcome, next⟩ := published
    subst accepted
    simp only [decide_eq_false_iff_not, ite_not]

end

end Ugdr.Api
