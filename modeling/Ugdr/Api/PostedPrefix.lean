import Ugdr.Api.SlotContents
import Ugdr.Worker.SlotContainment

/-! # A posted chain is a prefix

A chain is accepted up to the first invalid work request or the last free slot, and every
published slot reads back as its work request. This holds exactly for the strides that cover
a header with all entries: in a shorter slot the last entry runs into the next one.
-/

namespace Ugdr.Api

open Ugdr.Queue Ugdr.Worker Machine

/-! ## The accepted prefix -/

def freeSlots (capacity : Nat) (ring : RingSystem UInt8) : Nat :=
  ring.released.length + capacity - ring.published.length

section

variable {Wr Wqe : Type} (posting : Posting Wr Wqe) (descriptor : QueueDescriptor) (maxSge : Nat)

/-- The work requests that fit into the free slots and precede the first invalid one. -/
def postedCount (chain : List Wr) (ring : RingSystem UInt8) : Nat :=
  min chain.length
    (min (freeSlots descriptor.capacity ring) (validPart posting maxSge chain).length)

/-- The first `count` work requests were published and nothing else happened. -/
structure PublishedPrefix (chain : List Wr) (count : Nat) (ring next : RingSystem UInt8) :
    Prop where
  frame : RingSystem.ConsumerFrame ring next
  published : next.published = ring.published ++
    (window descriptor.capacity ring.published.length count).map fun slot =>
      (slot, next.slots slot)
  tail : next.words .producer = (ring.published.length + count) % 2 ^ 64
  ready : ProducerReady next
  unchanged : ∀ address,
    address / descriptor.slotStride ∉ window descriptor.capacity ring.published.length count →
    slotMemory descriptor.slotStride next address = slotMemory descriptor.slotStride ring address
  contents : ∀ index < count, ∀ wr, chain[index]? = some wr →
    posting.read (slotMemory descriptor.slotStride next)
      ((ring.published.length + index) % descriptor.capacity * descriptor.slotStride) =
        posting.contents wr

/-- The outcome of posting a chain. -/
structure PostedPrefix (chain : List Wr) (ring : RingSystem UInt8) (posted : Posted Wr) :
    Prop where
  status : posted.status =
    if postedCount posting descriptor maxSge chain ring = chain.length then none
    else if postedCount posting descriptor maxSge chain ring =
      freeSlots descriptor.capacity ring then some .enomem
    else some .einval
  badWr : posted.badWr =
    if postedCount posting descriptor maxSge chain ring = chain.length then none
    else some (chain.drop (postedCount posting descriptor maxSge chain ring))
  ring : PublishedPrefix posting descriptor chain
    (postedCount posting descriptor maxSge chain ring) ring posted.ring

/-- Every chain is posted up to a prefix, on every ring that its two users reach and on which
the producer holds no reservation. -/
def PostsPrefix : Prop :=
  ∀ slots actions,
    let ring := Execution.run (RingSystem.step descriptor.capacity) (RingSystem.created slots)
      actions
    ProducerReady ring → ∀ wr rest, ∀ fuel ≥ 2,
      ∃ posted, postChain posting descriptor maxSge fuel (wr :: rest) ring = some posted ∧
        PostedPrefix posting descriptor maxSge (wr :: rest) ring posted

end

section

variable {Wr Wqe : Type} {posting : Posting Wr Wqe} {descriptor : QueueDescriptor} {maxSge : Nat}
  {chain : List Wr} {count : Nat} {ring next : RingSystem UInt8}

/-- A reservation that comes to nothing publishes nothing. -/
theorem publishedPrefix_none (invariant : RingSystem.Invariant descriptor.capacity ring)
    (reserved : RingSystem.Reserved ring next 0) :
    PublishedPrefix posting descriptor chain 0 ring next where
  frame := reserved.frame
  published := by rw [reserved.published]; exact (List.append_nil _).symm
  tail := reserved.tail.trans (invariant.words .producer)
  ready := ⟨reserved.idle, reserved.held⟩
  unchanged address _ := by rw [slotMemory, slotMemory, reserved.slots]
  contents index inside := absurd inside (Nat.not_lt_zero index)

theorem PublishedPrefix.reserve {last : RingSystem UInt8}
    (done : PublishedPrefix posting descriptor chain count ring next)
    (reserved : RingSystem.Reserved next last 0) :
    PublishedPrefix posting descriptor chain count ring last := by
  have memory : slotMemory descriptor.slotStride last =
      slotMemory descriptor.slotStride next := by
    funext address
    rw [slotMemory, slotMemory, reserved.slots]
  constructor
  · exact done.frame.trans reserved.frame
  · rw [reserved.published, reserved.slots]
    exact done.published
  · exact reserved.tail.trans done.tail
  · exact ⟨reserved.idle, reserved.held⟩
  · rw [memory]
    exact done.unchanged
  · rw [memory]
    exact done.contents

end

/-! ## Posting in slots that hold every work request -/

section

variable {Wr Wqe : Type} {posting : Posting Wr Wqe} {descriptor : QueueDescriptor} {maxSge : Nat}
  {ring : RingSystem UInt8} (lawful : posting.Lawful maxSge)
  (fits : posting.headerSize + maxSge * sizeofSharedSge ≤ descriptor.slotStride)

include lawful fits

/-- The published elements survive the stores into a reservation. -/
theorem fill_invariant {reserved : RingSystem UInt8} {free : Nat} {slots : List Nat}
    {chain : List Wr} (invariant : RingSystem.Invariant descriptor.capacity reserved)
    (valid : ∀ wr ∈ chain, posting.validator wr maxSge = true)
    (given : RingSystem.Reserved ring reserved free)
    (handed : reserved.handed .producer = slots) :
    RingSystem.Invariant descriptor.capacity
      (withSlotMemory descriptor.slotStride
        ((slotMemory descriptor.slotStride ring).storeAll
          (chainWrites posting descriptor slots chain)) reserved) := by
  refine RingSystem.overwrite_invariant invariant fun slot apart => ?_
  funext offset
  by_cases inside : offset < descriptor.slotStride
  · rw [if_pos inside]
    have place : (slot * descriptor.slotStride + offset) / descriptor.slotStride = slot := by
      apply Nat.div_eq_of_lt_le
      · omega
      · rw [Nat.add_one_mul]
        omega
    have rest : (slot * descriptor.slotStride + offset) % descriptor.slotStride = offset := by
      rw [Nat.mul_add_mod', Nat.mod_eq_of_lt inside]
    rw [chainWrites_outside lawful fits valid, slotMemory, place, rest, given.slots]
    rw [place]
    exact fun member => apart (handed ▸ List.mem_of_mem_take member)
  · rw [if_neg inside]

/-- What a batch publishes. -/
theorem publishedPrefix_of_filled {chain : List Wr} {free count : Nat} {next : RingSystem UInt8}
    (near : free ≤ descriptor.capacity)
    (countEq : count = min free (validPart posting maxSge chain).length)
    (invariant : RingSystem.Invariant descriptor.capacity next)
    (filled : Filled descriptor.slotStride ring next
      (window descriptor.capacity ring.published.length free) count
      ((slotMemory descriptor.slotStride ring).storeAll
        (chainWrites posting descriptor (window descriptor.capacity ring.published.length free)
          (validPart posting maxSge chain)))) :
    PublishedPrefix posting descriptor chain count ring next := by
  have taken : (window descriptor.capacity ring.published.length free).take count =
      window descriptor.capacity ring.published.length count := by
    rw [window_take, Nat.min_eq_left (by omega)]
  have published := filled.published
  rw [taken] at published
  have valid : ∀ wr ∈ validPart posting maxSge chain, posting.validator wr maxSge = true :=
    fun wr member => valid_of_mem_validPart member
  constructor
  · exact filled.frame
  · exact published
  · have tail : next.words .producer = next.published.length % 2 ^ 64 :=
      invariant.words .producer
    rw [tail, published, List.length_append, List.length_map, window_length]
  · exact filled.ready
  · intro address outside
    rw [filled.memory]
    refine chainWrites_outside lawful fits valid ?_
    rwa [window_take, Nat.min_comm, ← countEq]
  · intro index inside wr found
    rw [filled.memory]
    have atSlot : (window descriptor.capacity ring.published.length free)[index]? =
        some ((ring.published.length + index) % descriptor.capacity) := by
      have below : index < free := by omega
      simp [window, below]
    have atChain : (validPart posting maxSge chain)[index]? = some wr := by
      have below : index < (validPart posting maxSge chain).length := by omega
      rw [← found]
      exact List.prefix_iff_getElem?.mp (List.takeWhile_prefix _) index below ▸
        List.getElem?_eq_getElem below
    exact read_chainWrites lawful fits _ valid (RingSystem.window_nodup near) atSlot atChain

/-- A batch and, if it was not enough, the attempt at the next one. -/
theorem postBatches_prefix (positive : 0 < descriptor.capacity)
    (small : descriptor.capacity ≤ 2 ^ 31) (stride : 0 < descriptor.slotStride)
    (invariant : RingSystem.Invariant descriptor.capacity ring) (ready : ProducerReady ring)
    (fuel : Nat) (wr : Wr) (rest : List Wr) :
    ∃ posted, postBatches posting descriptor maxSge (fuel + 2) (wr :: rest) ring = some posted ∧
      PostedPrefix posting descriptor maxSge (wr :: rest) ring posted := by
  generalize chainEq : wr :: rest = chain
  have nonempty : chain.length ≠ 0 := by rw [← chainEq]; exact Nat.succ_ne_zero _
  have few : (validPart posting maxSge chain).length ≤ chain.length := validPart_length_le chain
  have count : postedCount posting descriptor maxSge chain ring =
      min (freeSlots descriptor.capacity ring) (validPart posting maxSge chain).length := by
    rw [postedCount]
    omega
  by_cases room : freeSlots descriptor.capacity ring = 0
  · -- The ring is full from the start.
    have full : ring.released.length + descriptor.capacity = ring.published.length := by
      have bounded := invariant.bounded
      rw [freeSlots] at room
      omega
    obtain ⟨next, reserved, posted⟩ := postBatches_full posting maxSge
      positive small invariant ready full (fuel + 1) wr rest
    rw [chainEq] at posted
    have none : postedCount posting descriptor maxSge chain ring = 0 := by omega
    refine ⟨_, posted, ?_, ?_, ?_⟩
    · rw [none, if_neg (Ne.symm nonempty), if_pos room.symm]
    · rw [none, if_neg (Ne.symm nonempty), List.drop_zero]
    · rw [none]
      exact publishedPrefix_none invariant reserved
  · obtain ⟨reserved, next, given, handed, reservedEq, nextEq, filled, posted⟩ :=
      postBatches_batch posting maxSge positive small stride invariant
        ready rfl room (fuel + 1) wr rest rfl rfl rfl
    rw [chainEq] at filled posted nextEq
    rw [← freeSlots] at filled posted nextEq
    have near : freeSlots descriptor.capacity ring ≤ descriptor.capacity := by
      have order := invariant.order
      rw [freeSlots]
      omega
    have held : RingSystem.Invariant descriptor.capacity reserved := by
      rw [reservedEq]
      exact RingSystem.invoke_invariant positive small invariant _ ready.idle
    have after : RingSystem.Invariant descriptor.capacity next := by
      rw [nextEq]
      exact RingSystem.invoke_invariant positive small
        (fill_invariant lawful fits held (fun wr member => valid_of_mem_validPart member) given
          handed) _ given.idle
    have done := publishedPrefix_of_filled lawful fits near rfl after filled
    rw [← count] at done posted
    by_cases whole : postedCount posting descriptor maxSge chain ring = chain.length
    · -- The chain ends with the batch.
      rw [if_pos (by omega), whole, List.drop_length, postBatches] at posted
      exact ⟨_, posted, by rw [if_pos whole], by rw [if_pos whole], done⟩
    · by_cases stopped : freeSlots descriptor.capacity ring ≤
          (validPart posting maxSge chain).length
      · -- The batch used up the free slots.
        rw [if_pos (.inl stopped)] at posted
        have used : postedCount posting descriptor maxSge chain ring =
            freeSlots descriptor.capacity ring := by omega
        have full : next.released.length + descriptor.capacity = next.published.length := by
          have bounded := invariant.bounded
          rw [done.frame.released, done.published, List.length_append, List.length_map,
            window_length, used, freeSlots]
          omega
        have left : (chain.drop (postedCount posting descriptor maxSge chain ring)).length ≠ 0 := by
          rw [List.length_drop]
          omega
        cases remaining : chain.drop (postedCount posting descriptor maxSge chain ring) with
        | nil => exact absurd (congrArg List.length remaining) left
        | cons current others =>
            obtain ⟨last, nothing, refused⟩ := postBatches_full posting maxSge
              positive small after done.ready full fuel current others
            rw [remaining, refused] at posted
            refine ⟨_, posted, ?_, ?_, done.reserve nothing⟩
            · rw [if_neg whole, if_pos used]
            · rw [if_neg whole, remaining]
      · -- An invalid work request comes next.
        rw [if_neg (by omega)] at posted
        refine ⟨_, posted, ?_, ?_, done⟩
        · rw [if_neg whole, if_neg (by omega)]
        · rw [if_neg whole]

/-- Slots that hold every accepted work request make posting a prefix. -/
theorem postsPrefix_of_fits (positive : 0 < descriptor.capacity)
    (small : descriptor.capacity ≤ 2 ^ 31) (stride : 0 < descriptor.slotStride)
    (kind : descriptor.kind = posting.kind) : PostsPrefix posting descriptor maxSge := by
  intro slots actions ring ready wr rest fuel enough
  obtain ⟨fuel, rfl⟩ : ∃ more, fuel = more + 2 := ⟨fuel - 2, by omega⟩
  rw [postChain, if_neg (not_not_intro kind)]
  exact postBatches_prefix lawful fits positive small stride
    (RingSystem.run_invariant positive small slots actions) ready fuel wr rest

end

/-! ## Posting in slots that are too short -/

section Overflow

variable {Wr Wqe : Type} {posting : Posting Wr Wqe} {descriptor : QueueDescriptor} {maxSge : Nat}

theorem chainWrites_singleton (positive : 0 < descriptor.capacity) (wr : Wr) :
    chainWrites posting descriptor (window descriptor.capacity 0 descriptor.capacity) [wr] =
      slotWrites posting descriptor 0 wr := by
  obtain ⟨others, first⟩ : ∃ others,
      window descriptor.capacity 0 descriptor.capacity = 0 :: others := by
    obtain ⟨less, same⟩ := Nat.exists_eq_succ_of_ne_zero positive.ne'
    rw [window, same, List.range_succ_eq_map]
    exact ⟨_, by rw [List.map_cons, Nat.zero_add, Nat.zero_mod]⟩
  rw [chainWrites, first, List.zip_cons_cons, List.zip_nil_right, List.flatMap_singleton]

/-- A store beyond the slot shows in the next one. -/
theorem not_postsPrefix_of_overflow (positive : 0 < descriptor.capacity)
    (small : descriptor.capacity ≤ 2 ^ 31) (stride : 0 < descriptor.slotStride)
    (kind : descriptor.kind = posting.kind) {wr : Wr}
    (valid : posting.validator wr maxSge = true) {before : List Store} {last : Store}
    (encoded : posting.encoder wr = before ++ [last])
    (beyond : descriptor.slotStride ≤ last.offset) (width : 0 < last.width)
    (visible : UInt8.ofNat last.value ≠ 0) : ¬PostsPrefix posting descriptor maxSge := by
  intro posts
  obtain ⟨posted, returned, done⟩ := posts (fun _ _ => 0) [] ⟨rfl, rfl⟩ wr [] 2 (Nat.le_refl 2)
  rw [Execution.run_nil, postChain, if_neg (not_not_intro kind)] at returned
  rw [Execution.run_nil] at done
  generalize ringEq : RingSystem.created (fun _ _ => (0 : UInt8)) = ring at returned done
  have empty : ring.published.length = 0 := by rw [← ringEq]; rfl
  have free : ring.released.length + descriptor.capacity - ring.published.length =
      descriptor.capacity := by
    rw [← ringEq]
    exact Nat.zero_add _
  have accepted : validPart posting maxSge [wr] = [wr] := by simp [validPart, valid]
  have one : postedCount posting descriptor maxSge [wr] ring = 1 := by
    rw [postedCount, accepted, freeSlots, free, List.length_singleton]
    omega
  have invariant : RingSystem.Invariant descriptor.capacity ring := by
    rw [← ringEq]
    exact RingSystem.created_invariant _
  have ready : ProducerReady ring := by
    rw [← ringEq]
    exact ⟨rfl, rfl⟩
  obtain ⟨-, next, -, -, -, -, filled, called⟩ := postBatches_batch posting maxSge
    positive small stride invariant ready free.symm positive.ne' 1 wr [] rfl rfl rfl
  rw [called, accepted, if_pos (.inr rfl), List.length_singleton,
    Nat.min_eq_right positive, List.drop_one, List.tail_cons, postBatches] at returned
  injection returned with same
  have memory := filled.memory
  rw [accepted, empty, chainWrites_singleton positive, slotWrites, encoded, List.map_append,
    Memory.storeAll_append] at memory
  -- The byte at the start of the last store lies in another slot and has changed.
  have changed : slotMemory descriptor.slotStride next last.offset = UInt8.ofNat last.value := by
    rw [memory, List.map_singleton, Memory.storeAll_cons, Memory.storeAll_nil, Store.write,
      Nat.zero_mul, Nat.zero_add]
    generalize (slotMemory descriptor.slotStride ring).storeAll _ = earlier
    have stored : earlier.store last.offset last.width last.value (last.offset + 0) = _ :=
      Memory.store_inside width
    rwa [Nat.add_zero, Nat.pow_zero, Nat.div_one] at stored
  have kept := done.ring.unchanged last.offset (by
    rw [one, empty, mem_window]
    rintro ⟨offset, less, inside⟩
    obtain rfl : offset = 0 := by omega
    rw [Nat.zero_add, Nat.zero_mod] at inside
    exact absurd (Nat.div_pos beyond stride) (by omega))
  rw [← same] at kept
  refine visible (changed.symm.trans (kept.trans ?_))
  rw [← ringEq]
  rfl

end Overflow

/-- `count` entries with a key of 1. -/
def keyedEntries : Option (Nat → SharedSge) :=
  some fun _ => { lkey := 1 }

theorem keyedEntries_fit : EntriesFit keyedEntries := by
  intro sges found index
  injection found with same
  rw [← same]
  have key : 1 < 2 ^ 32 := by decide
  exact ⟨Nat.two_pow_pos 64, Nat.two_pow_pos 32, key⟩

theorem int32_ofNat_toNat {count : Nat} (small : count < 2 ^ 31) :
    (Int32.ofNat count).toInt = count := by
  rw [Int32.toInt_ofNat_of_lt small]

/-- The key of the last entry is stored last. -/
theorem storeSges_last (headerSize : Nat) {index : Nat} (small : index + 1 < 2 ^ 31) :
    ∃ before, storeSges headerSize (Int32.ofNat (index + 1)) keyedEntries =
      before ++ [⟨headerSize + index * sizeofSharedSge + 12, 4, 1⟩] := by
  simp only [storeSges, keyedEntries, int32_ofNat_toNat small, Int.toNat_natCast,
    List.range_succ, List.flatMap_append, List.flatMap_singleton, storeSge]
  exact ⟨_ ++ [_, _], by rw [List.append_assoc]; rfl⟩

def keyedSend (count : Nat) : UgdrSendWr where
  wrId := 0
  sgList := keyedEntries
  numSge := Int32.ofNat count
  opcode := 0
  sendFlags := 0
  immData := 0
  remoteAddr := 0
  rkey := 0
  entries_fit := keyedEntries_fit

def keyedReceive (count : Nat) : UgdrRecvWr where
  wrId := 0
  sgList := keyedEntries
  numSge := Int32.ofNat count
  entries_fit := keyedEntries_fit

theorem validSgeList_keyed {count maxSge : Nat} (small : count < 2 ^ 31) (few : count ≤ maxSge) :
    validSgeList (Int32.ofNat count) keyedEntries maxSge = true := by
  simp only [validSgeList, int32_ofNat_toNat small, decide_eq_true_eq]
  exact ⟨Int.natCast_nonneg count, few, .inr rfl⟩

/-- A posting accepts a work request of any number of entries whose last store is a key. -/
def StoresKeys {Wr Wqe : Type} (posting : Posting Wr Wqe) : Prop :=
  ∀ index maxSge, index + 1 < 2 ^ 31 → index + 1 ≤ maxSge →
    ∃ wr before, posting.validator wr maxSge = true ∧ posting.encoder wr =
      before ++ [⟨posting.headerSize + index * sizeofSharedSge + 12, 4, 1⟩]

theorem sendPosting_storesKeys : StoresKeys sendPosting := by
  intro index maxSge small few
  obtain ⟨before, last⟩ := storeSges_last sizeofSendWqeHeader small
  refine ⟨keyedSend (index + 1), ⟨0, sizeofSendWqeHeader, 0⟩ ::
    sendFields (keyedSend (index + 1)).toSendWr ++ before, ?_, ?_⟩
  · simp only [sendPosting, validSendWr, decide_eq_true_eq]
    have flags : (0 : UInt32) &&& ~~~UInt32.ofNat sendSignaled = 0 := by decide
    exact ⟨.inl rfl, flags, validSgeList_keyed small few⟩
  · rw [List.append_assoc]
    exact congrArg (_ ++ ·) last

theorem receivePosting_storesKeys : StoresKeys receivePosting := by
  intro index maxSge small few
  obtain ⟨before, last⟩ := storeSges_last sizeofReceiveWqeHeader small
  refine ⟨keyedReceive (index + 1), ⟨0, sizeofReceiveWqeHeader, 0⟩ ::
    receiveFields (keyedReceive (index + 1)).toRecvWr ++ before, validSgeList_keyed small few, ?_⟩
  rw [List.append_assoc]
  exact congrArg (_ ++ ·) last

/-! ## Both kinds of queue -/

/-- A chain is posted as a prefix exactly if the stride covers the header and all entries. -/
theorem postsPrefix_iff {Wr Wqe : Type} {posting : Posting Wr Wqe} {capacity stride : Nat}
    {maxSge : Nat} (small : capacity ≤ 2 ^ 31)
    (accepted : validDescriptor ⟨posting.kind, capacity, stride⟩ = true) (below : stride < 2 ^ 32)
    (header : posting.headerSize % 8 = 0) (short : posting.headerSize ≤ 64)
    (lawful : posting.Lawful maxSge) (keys : StoresKeys posting) :
    PostsPrefix posting ⟨posting.kind, capacity, stride⟩ maxSge ↔
      posting.headerSize + maxSge * sizeofSharedSge ≤ stride := by
  obtain ⟨nonempty, nonzero, aligned⟩ := of_decide_eq_true accepted
  simp only [sharedRingCacheLine] at nonempty nonzero aligned
  constructor
  · intro posts
    by_contra long
    simp only [sizeofSharedSge] at long
    obtain ⟨wr, before, valid, encoded⟩ := keys ((stride - posting.headerSize) / 16) maxSge
      (by omega) (by omega)
    have visible : UInt8.ofNat 1 ≠ 0 := by decide
    refine not_postsPrefix_of_overflow (Nat.pos_of_ne_zero nonempty) small
      (Nat.pos_of_ne_zero nonzero) rfl valid encoded ?_ (Nat.succ_pos 3) visible posts
    simp only [sizeofSharedSge]
    omega
  · intro fits
    exact postsPrefix_of_fits lawful fits (Nat.pos_of_ne_zero nonempty) small
      (Nat.pos_of_ne_zero nonzero) rfl

/-- The stride that was computed covers its entries exactly if it did not lose its upper
bits. -/
theorem stride_covers_iff {headerSize maxSge stride : Nat} (short : headerSize ≤ 64)
    (width : maxSge < 2 ^ 32) (computed : alignedSlotStride headerSize maxSge = .ok stride) :
    stride < 2 ^ 32 ∧ (headerSize + maxSge * sizeofSharedSge ≤ stride ↔
      headerSize + maxSge * sizeofSharedSge ≤ 2 ^ 32 - slotAlignment) := by
  rw [alignedSlotStride_eq short width] at computed
  injection computed with same
  rw [← same]
  simp only [roundedSlotSize, sizeofSharedSge, slotAlignment]
  omega

/-- Posting a chain accepts exactly a prefix as long as the strides of the queue pair did not
lose their upper bits. -/
theorem chains_post_prefix_iff {capacity stride : Nat} (small : capacity ≤ 2 ^ 31)
    (maxSge : UInt32) :
    (sendSlotStride maxSge.toNat = .ok stride →
      validDescriptor ⟨.send, capacity, stride⟩ = true →
      (PostsPrefix sendPosting ⟨.send, capacity, stride⟩ maxSge.toNat ↔
        maxSge.toNat ≤ 268435449)) ∧
    (receiveSlotStride maxSge.toNat = .ok stride →
      validDescriptor ⟨.receive, capacity, stride⟩ = true →
      (PostsPrefix receivePosting ⟨.receive, capacity, stride⟩ maxSge.toNat ↔
        maxSge.toNat ≤ 268435451)) := by
  constructor
  · intro computed accepted
    obtain ⟨below, covers⟩ := stride_covers_iff (by decide) maxSge.toNat_lt computed
    refine (postsPrefix_iff small accepted below rfl (by decide) (sendPosting_lawful _)
      sendPosting_storesKeys).trans (covers.trans ?_)
    simp only [sizeofSendWqeHeader, sizeofSharedSge, slotAlignment]
    omega
  · intro computed accepted
    obtain ⟨below, covers⟩ := stride_covers_iff (by decide) maxSge.toNat_lt computed
    refine (postsPrefix_iff small accepted below rfl (by decide) (receivePosting_lawful _)
      receivePosting_storesKeys).trans (covers.trans ?_)
    simp only [sizeofReceiveWqeHeader, sizeofSharedSge, slotAlignment]
    omega

/-- With 4 slots for sends of up to 8 entries. -/
theorem chains_post_prefix_iff_eight :
    4 ≤ 2 ^ 31 ∧ sendSlotStride 8 = .ok 192 ∧ validDescriptor ⟨.send, 4, 192⟩ = true ∧
      PostsPrefix sendPosting ⟨.send, 4, 192⟩ 8 := by
  have small : 4 ≤ 2 ^ 31 := by decide
  have computed : sendSlotStride 8 = .ok 192 := rfl
  have accepted : validDescriptor ⟨.send, 4, 192⟩ = true := rfl
  exact ⟨small, computed, accepted,
    ((chains_post_prefix_iff small 8).1 computed accepted).mpr (by decide)⟩

/-- The slots for sends of up to 268435454 entries have 64 bytes. -/
theorem wide_chain_overflows :
    sendSlotStride 268435454 = .ok 64 ∧ validDescriptor ⟨.send, 2, 64⟩ = true ∧
      ¬PostsPrefix sendPosting ⟨.send, 2, 64⟩ 268435454 := by
  have accepted : validDescriptor ⟨.send, 2, 64⟩ = true := rfl
  refine ⟨rfl, accepted, fun posts => ?_⟩
  have fits := (postsPrefix_iff (by decide) accepted (by decide) rfl (by decide)
    (sendPosting_lawful _) sendPosting_storesKeys).mp posts
  exact absurd fits (by decide)

end Ugdr.Api
