import Ugdr.Api.PostChain
import Mathlib.Data.List.Pairwise

/-! # Reading posted slots back

The stores of `encode_send` and `encode_receive` touch disjoint bytes behind the zero fill, so
a slot reads back as the work request that was stored in it.
-/

namespace Ugdr.Api

open Ugdr.Queue Ugdr.Worker Machine

/-! ## Reading stores back -/

/-- Stores that touch disjoint bytes in ascending order. -/
def Ascending (stores : List Store) : Prop :=
  stores.Pairwise fun first second => first.offset + first.width ≤ second.offset

theorem load_of_ascending {stores : List Store} (ascending : Ascending stores) {store : Store}
    (member : store ∈ stores) (fits : store.value < 256 ^ store.width) (memory : Memory)
    (base : Nat) :
    (memory.storeAll (stores.map (Store.write base))).load (base + store.offset) store.width =
      store.value := by
  obtain ⟨before, after, split⟩ := List.append_of_mem member
  rw [split, List.map_append, List.map_cons]
  change Memory.load _ (store.write base).address (store.write base).width = _
  refine Memory.load_storeAll fits fun later listed => ?_
  obtain ⟨other, inside, rfl⟩ := List.mem_map.mp listed
  rw [Ascending, split] at ascending
  have order := (List.pairwise_cons.mp (List.pairwise_append.mp ascending).2.1).1 other inside
  exact .inr (by simp only [Store.write]; omega)

theorem storeSge_ascending (headerSize index : Nat) (sge : SharedSge) :
    Ascending (storeSge headerSize index sge) := by
  simp [Ascending, storeSge, sizeofSharedSge]

theorem storeSges_offset {headerSize : Nat} {numSge : Int32}
    {sgList : Option (Nat → SharedSge)} {store : Store}
    (member : store ∈ storeSges headerSize numSge sgList) : headerSize ≤ store.offset := by
  unfold storeSges at member
  split at member
  · cases member
  · obtain ⟨index, -, stored⟩ := List.mem_flatMap.mp member
    simp only [storeSge, List.mem_cons, List.not_mem_nil, or_false] at stored
    rcases stored with rfl | rfl | rfl <;> dsimp only <;> omega

theorem storeSges_ascending (headerSize : Nat) (numSge : Int32)
    (sgList : Option (Nat → SharedSge)) : Ascending (storeSges headerSize numSge sgList) := by
  unfold storeSges
  split
  · exact List.Pairwise.nil
  · rename_i sges
    rw [Ascending, List.pairwise_flatMap]
    refine ⟨fun index _ => storeSge_ascending headerSize index (sges index), ?_⟩
    refine List.pairwise_lt_range.imp fun {first second} less => ?_
    intro early earlyMember late lateMember
    simp only [storeSge, sizeofSharedSge, List.mem_cons, List.not_mem_nil, or_false]
      at earlyMember lateMember
    rcases earlyMember with rfl | rfl | rfl <;> rcases lateMember with rfl | rfl | rfl <;>
      dsimp only <;> omega

/-- The array behind the header, read from memory in which ascending stores put it. -/
theorem readSges_of_ascending {headerSize : Nat} {numSge : Int32}
    {sgList : Option (Nat → SharedSge)} (fit : EntriesFit sgList) {stores : List Store}
    (ascending : Ascending stores)
    (listed : ∀ store ∈ storeSges headerSize numSge sgList, store ∈ stores)
    (present : numSge.toInt.toNat = 0 ∨ sgList.isSome) (memory : Memory) (base : Nat) :
    readSges (memory.storeAll (stores.map (Store.write base))) (base + headerSize)
      numSge.toInt.toNat = entries numSge sgList := by
  cases found : sgList with
  | none =>
      have none : numSge.toInt.toNat = 0 := by simpa [found] using present
      simp [readSges, entries, none]
  | some sges =>
      rw [readSges, entries]
      refine List.map_congr_left fun index member => ?_
      have stored : ∀ store ∈ storeSge headerSize index (sges index), store ∈ stores := by
        intro store inside
        apply listed
        rw [found, storeSges]
        exact List.mem_flatMap.mpr ⟨index, member, inside⟩
      obtain ⟨address, length, lkey⟩ := fit sges found index
      simp only [storeSge, List.forall_mem_cons] at stored
      have first := load_of_ascending ascending stored.1 address memory base
      have second := load_of_ascending ascending stored.2.1 length memory base
      have third := load_of_ascending ascending stored.2.2.1 lkey memory base
      simp only [← Nat.add_assoc] at first second third
      rw [readSge, first, second, third]

theorem readSges_congr {memory other : Memory} {address count : Nat}
    (same : ∀ offset < count * sizeofSharedSge,
      other (address + offset) = memory (address + offset)) :
    readSges other address count = readSges memory address count := by
  rw [readSges, readSges]
  refine List.map_congr_left fun index member => ?_
  have below : index + 1 ≤ count := List.mem_range.mp member
  have room : (index + 1) * sizeofSharedSge ≤ count * sizeofSharedSge :=
    Nat.mul_le_mul_right _ below
  simp only [sizeofSharedSge] at room same ⊢
  have field : ∀ start width, start + width ≤ 16 →
      other.load (address + index * 16 + start) width =
        memory.load (address + index * 16 + start) width := by
    intro start width inside
    refine Memory.load_congr fun offset less => ?_
    have here := same (index * 16 + start + offset) (by omega)
    simpa only [← Nat.add_assoc] using here
  have start := field 0 8 (by decide)
  rw [Nat.add_zero] at start
  rw [readSge, readSge, start, field 8 4 (by decide), field 12 4 (by decide)]

/-! ## The two encoders -/

theorem present_of_validSgeList {numSge : Int32} {sgList : Option (Nat → SharedSge)}
    {maxSge : Nat} (valid : validSgeList numSge sgList maxSge = true) :
    numSge.toInt.toNat ≤ maxSge ∧ (numSge.toInt.toNat = 0 ∨ sgList.isSome) := by
  simp only [validSgeList, decide_eq_true_eq] at valid
  obtain ⟨-, few, present⟩ := valid
  refine ⟨few, present.imp_left fun none => ?_⟩
  rw [none]
  rfl

theorem entries_of_validSendWr {wr : SendWr} {maxSge : Nat}
    (valid : validSendWr wr maxSge = true) :
    wr.numSge.toInt.toNat ≤ maxSge ∧ (wr.numSge.toInt.toNat = 0 ∨ wr.sgList.isSome) := by
  simp only [validSendWr, decide_eq_true_eq] at valid
  exact present_of_validSgeList valid.2.2

/-- The stores of `encode_send` behind the zero fill. -/
def sendFields (wr : SendWr) : List Store :=
  [⟨0, 8, wr.wrId.toNat⟩, ⟨8, 8, wr.remoteAddr.toNat⟩, ⟨16, 4, wr.rkey.toNat⟩,
    ⟨20, 4, wr.opcode.toNat⟩, ⟨24, 4, wr.sendFlags.toNat⟩,
    ⟨28, 4, if wr.opcode.toNat = wrRdmaWriteWithImm then wr.immData.toNat else 0⟩,
    ⟨32, 4, wr.numSge.toInt.toNat⟩]

def receiveFields (wr : RecvWr) : List Store :=
  [⟨0, 8, wr.wrId.toNat⟩, ⟨8, 4, wr.numSge.toInt.toNat⟩]

/-- Fields in ascending order with the entries behind them. -/
theorem ascending_append {fields entries : List Store} {headerSize : Nat}
    (first : Ascending fields) (second : Ascending entries)
    (inside : ∀ store ∈ fields, store.offset + store.width ≤ headerSize)
    (behind : ∀ store ∈ entries, headerSize ≤ store.offset) : Ascending (fields ++ entries) :=
  List.pairwise_append.mpr ⟨first, second, fun earlier member later listed =>
    (inside earlier member).trans (behind later listed)⟩

theorem encodeSend_ascending (wr : SendWr) :
    encodeSend wr = ⟨0, sizeofSendWqeHeader, 0⟩ ::
      (sendFields wr ++ storeSges sizeofSendWqeHeader wr.numSge wr.sgList) ∧
    Ascending (sendFields wr ++ storeSges sizeofSendWqeHeader wr.numSge wr.sgList) := by
  refine ⟨rfl, ascending_append ?_ (storeSges_ascending _ _ _) ?_ fun _ => storeSges_offset⟩
  · simp [Ascending, sendFields]
  · simp [sendFields, sizeofSendWqeHeader]

theorem encodeReceive_ascending (wr : RecvWr) :
    encodeReceive wr = ⟨0, sizeofReceiveWqeHeader, 0⟩ ::
      (receiveFields wr ++ storeSges sizeofReceiveWqeHeader wr.numSge wr.sgList) ∧
    Ascending (receiveFields wr ++ storeSges sizeofReceiveWqeHeader wr.numSge wr.sgList) := by
  refine ⟨rfl, ascending_append ?_ (storeSges_ascending _ _ _) ?_ fun _ => storeSges_offset⟩
  · simp [Ascending, receiveFields]
  · simp [receiveFields, sizeofReceiveWqeHeader]

theorem toInt_toNat_lt (number : Int32) : number.toInt.toNat < 256 ^ 4 := by
  have below := number.toInt_lt
  omega

theorem uint64_fits (number : UInt64) : number.toNat < 256 ^ 8 := number.toNat_lt

theorem uint32_fits (number : UInt32) : number.toNat < 256 ^ 4 := number.toNat_lt

theorem sendPosting_lawful (maxSge : Nat) : sendPosting.Lawful maxSge where
  within wr valid store member := encodeSend_within valid member
  read_encoder wr valid memory base := by
    obtain ⟨stores, ascending⟩ := encodeSend_ascending wr.toSendWr
    simp only [sendPosting, stores, List.map_cons, Memory.storeAll_cons]
    generalize memory.store _ _ _ = zeroed
    have field : ∀ store ∈ sendFields wr.toSendWr, store.value < 256 ^ store.width →
        (zeroed.storeAll ((sendFields wr.toSendWr ++
          storeSges sizeofSendWqeHeader wr.numSge wr.sgList).map (Store.write base))).load
            (base + store.offset) store.width = store.value :=
      fun store member fits =>
        load_of_ascending ascending (List.mem_append_left _ member) fits zeroed base
    have immediate : (if wr.opcode.toNat = wrRdmaWriteWithImm then wr.immData.toNat else 0) <
        256 ^ 4 := by
      split
      · exact uint32_fits _
      · decide
    simp only [sendFields, List.forall_mem_cons] at field
    obtain ⟨wrId, remoteAddr, rkey, opcode, sendFlags, immData, sgeCount, -⟩ := field
    have header : readSendHeader (zeroed.storeAll ((sendFields wr.toSendWr ++
        storeSges sizeofSendWqeHeader wr.numSge wr.sgList).map (Store.write base))) base =
          (sendPosting.contents wr).1 := by
      rw [Nat.add_zero] at wrId
      simp only [readSendHeader, sendFields, wrId (uint64_fits _), remoteAddr (uint64_fits _),
        rkey (uint32_fits _), opcode (uint32_fits _), sendFlags (uint32_fits _),
        immData immediate, sgeCount (toInt_toNat_lt _), sendPosting]
    rw [header]
    simp only [sendPosting]
    rw [readSges_of_ascending wr.entries_fit ascending
      (fun store member => List.mem_append_right _ member) (entries_of_validSendWr valid).2]
  read_congr wr valid memory other base held same := by
    obtain ⟨few, -⟩ := entries_of_validSendWr valid
    have field : ∀ start width, start + width ≤ sizeofSendWqeHeader →
        other.load (base + start) width = memory.load (base + start) width := by
      intro start width inside
      refine Memory.load_congr fun offset less => ?_
      have here := same (start + offset) (by
        simp only [sendPosting, sizeofSendWqeHeader] at inside ⊢
        omega)
      rwa [← Nat.add_assoc] at here
    have header : readSendHeader other base = readSendHeader memory base := by
      have wrId := field 0 8 (by decide)
      rw [Nat.add_zero] at wrId
      simp only [readSendHeader, wrId, field 8 8 (by decide), field 16 4 (by decide),
        field 20 4 (by decide), field 24 4 (by decide), field 28 4 (by decide),
        field 32 4 (by decide)]
    have count : (readSendHeader memory base).sgeCount = wr.numSge.toInt.toNat :=
      congrArg (fun wqe => wqe.1.sgeCount) held
    rw [← held]
    simp only [sendPosting, header, count]
    rw [readSges_congr fun offset inside => ?_]
    have room : wr.numSge.toInt.toNat * sizeofSharedSge ≤ maxSge * sizeofSharedSge :=
      Nat.mul_le_mul_right _ few
    have here := same (sizeofSendWqeHeader + offset) (by
      simp only [sendPosting]
      omega)
    rwa [← Nat.add_assoc] at here

theorem receivePosting_lawful (maxSge : Nat) : receivePosting.Lawful maxSge where
  within wr valid store member := encodeReceive_within valid member
  read_encoder wr valid memory base := by
    obtain ⟨stores, ascending⟩ := encodeReceive_ascending wr.toRecvWr
    simp only [receivePosting, stores, List.map_cons, Memory.storeAll_cons]
    generalize memory.store _ _ _ = zeroed
    have field : ∀ store ∈ receiveFields wr.toRecvWr, store.value < 256 ^ store.width →
        (zeroed.storeAll ((receiveFields wr.toRecvWr ++
          storeSges sizeofReceiveWqeHeader wr.numSge wr.sgList).map (Store.write base))).load
            (base + store.offset) store.width = store.value :=
      fun store member fits =>
        load_of_ascending ascending (List.mem_append_left _ member) fits zeroed base
    simp only [receiveFields, List.forall_mem_cons] at field
    obtain ⟨wrId, sgeCount, -⟩ := field
    have header : readReceiveHeader (zeroed.storeAll ((receiveFields wr.toRecvWr ++
        storeSges sizeofReceiveWqeHeader wr.numSge wr.sgList).map (Store.write base))) base =
          (receivePosting.contents wr).1 := by
      rw [Nat.add_zero] at wrId
      simp only [readReceiveHeader, receiveFields, wrId (uint64_fits _),
        sgeCount (toInt_toNat_lt _), receivePosting]
    rw [header]
    simp only [receivePosting]
    rw [readSges_of_ascending wr.entries_fit ascending
      (fun store member => List.mem_append_right _ member) (present_of_validSgeList valid).2]
  read_congr wr valid memory other base held same := by
    obtain ⟨few, -⟩ := present_of_validSgeList valid
    have field : ∀ start width, start + width ≤ sizeofReceiveWqeHeader →
        other.load (base + start) width = memory.load (base + start) width := by
      intro start width inside
      refine Memory.load_congr fun offset less => ?_
      have here := same (start + offset) (by
        simp only [receivePosting, sizeofReceiveWqeHeader] at inside ⊢
        omega)
      rwa [← Nat.add_assoc] at here
    have header : readReceiveHeader other base = readReceiveHeader memory base := by
      have wrId := field 0 8 (by decide)
      rw [Nat.add_zero] at wrId
      simp only [readReceiveHeader, wrId, field 8 4 (by decide)]
    have count : (readReceiveHeader memory base).sgeCount = wr.numSge.toInt.toNat :=
      congrArg (fun wqe => wqe.1.sgeCount) held
    rw [← held]
    simp only [receivePosting, header, count]
    rw [readSges_congr fun offset inside => ?_]
    have room : wr.numSge.toInt.toNat * sizeofSharedSge ≤ maxSge * sizeofSharedSge :=
      Nat.mul_le_mul_right _ few
    have here := same (sizeofReceiveWqeHeader + offset) (by
      simp only [receivePosting]
      omega)
    rwa [← Nat.add_assoc] at here

end Ugdr.Api
