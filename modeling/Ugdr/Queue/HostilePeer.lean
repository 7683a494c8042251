import Ugdr.Foundation.Execution
import Ugdr.Queue.Descriptors
import Ugdr.Queue.RingInterleaving
import Mathlib.Data.List.Induction
import Mathlib.Data.List.Nodup

/-! # A ring with a hostile peer

The other process may store anything into the shared words at any time, so that each load
of an endpoint returns an arbitrary value. The endpoint still only touches its own word and
slots inside of the mapping.
-/

namespace Ugdr.Queue

open Machine Execution

/-! ## The mapping -/

/-- `shared_ring_mapping_size` with every operation taken in 64 bits. -/
def machineMappingSize (descriptor : QueueDescriptor) (pageSize : Nat) : Except Errno Nat :=
  if pageSize = 0 ∨ validDescriptor descriptor = false then
    .error .einval
  else if (wrapSub 64 sizeMax sizeofSharedRingHeader) / descriptor.slotStride <
      descriptor.capacity then
    .error .eoverflow
  else
    let raw := wrapAdd 64 sizeofSharedRingHeader
      ((descriptor.capacity * descriptor.slotStride) % 2 ^ 64)
    let remainder := raw % pageSize
    if remainder ≠ 0 ∧ wrapSub 64 sizeMax (wrapSub 64 pageSize remainder) < raw then
      .error .eoverflow
    else
      .ok (if remainder = 0 then raw else wrapSub 64 (wrapAdd 64 raw pageSize) remainder)

/-- What `map_shared_ring` reads of the header. -/
structure MappedHeader where
  magic : Nat
  version : Nat
  kind : Nat
  headerBytes : Nat
  mappingBytes : Nat
  capacity : Nat
  slotStride : Nat
  /-- All reserved words of the three cache lines. -/
  reserved : List Nat

def sharedRingMagic : Nat := 0x55475251

def sharedRingVersion : Nat := 1

/-- What the operating system answers while a ring is mapped. -/
structure RingMapCalls where
  /-- `st_size` of `fstat`. -/
  fileSize : Except Errno Int
  mapMemory : Nat → Status
  pageSize : Except Errno Nat

/-- The checks of the header in `map_shared_ring`. -/
def validateHeader (header : MappedHeader) (expected : QueueDescriptor) (mappingSize : Nat) :
    Status :=
  if header.magic = sharedRingMagic ∧ header.version ≠ sharedRingVersion then
    some .eprotonosupport
  else if header.magic ≠ sharedRingMagic ∨ header.kind ≠ expected.kind.code ∨
      header.headerBytes ≠ sizeofSharedRingHeader ∨ header.mappingBytes ≠ mappingSize ∨
      header.capacity ≠ expected.capacity ∨ header.slotStride ≠ expected.slotStride ∨
      header.reserved.any (· ≠ 0) then
    some .eproto
  else
    none

/-- `map_shared_ring` for a fresh ring object: the size of its mapping. -/
def mapSharedRing (system : RingMapCalls) (header : MappedHeader) (descriptorFd : Int)
    (expected : QueueDescriptor) : Except Errno Nat :=
  if descriptorFd < 0 ∨ validDescriptor expected = false then
    .error .einval
  else
    match system.fileSize with
    | .error status => .error status
    | .ok fileSize =>
        if fileSize < sizeofSharedRingHeader ∨ (sizeMax : Int) < fileSize then
          .error .eproto
        else
          let mappingSize := fileSize.toNat
          match system.mapMemory mappingSize with
          | some status => .error status
          | none =>
              match validateHeader header expected mappingSize with
              | some status => .error status
              | none =>
                  match system.pageSize with
                  | .error status => .error status
                  | .ok pageSize =>
                      match machineMappingSize expected pageSize with
                      | .error status => .error status
                      | .ok expectedSize =>
                          if expectedSize ≠ mappingSize then .error .eproto else .ok mappingSize

/-- The size of a mapping is not cut off by the width of its type. -/
theorem machineMappingSize_eq {descriptor : QueueDescriptor} {pageSize : Nat}
    (small : descriptor.capacity < 2 ^ 32) (narrow : descriptor.slotStride < 2 ^ 32)
    (page : pageSize < 2 ^ 64) :
    machineMappingSize descriptor pageSize = sharedRingMappingSize descriptor pageSize := by
  have product : descriptor.capacity * descriptor.slotStride ≤ (2 ^ 32 - 1) * (2 ^ 32 - 1) :=
    Nat.mul_le_mul (by omega) (by omega)
  have whole : wrapAdd 64 sizeofSharedRingHeader
      ((descriptor.capacity * descriptor.slotStride) % 2 ^ 64) =
        sizeofSharedRingHeader + descriptor.capacity * descriptor.slotStride := by
    rw [Nat.mod_eq_of_lt (by omega)]
    exact wrapAdd_of_lt (by rw [sizeofSharedRingHeader, sharedRingCacheLine]; omega)
  rw [machineMappingSize, sharedRingMappingSize, whole,
    wrapSub_of_le (by decide) (by decide)]
  split
  · rfl
  · rename_i valid
    obtain ⟨nonzero, -⟩ := not_or.mp valid
    split
    · rfl
    · generalize sizeofSharedRingHeader + descriptor.capacity * descriptor.slotStride = raw at *
      have rest := Nat.mod_lt raw (Nat.pos_of_ne_zero nonzero)
      dsimp only
      rw [wrapSub_of_le rest.le page, wrapSub_of_le (by rw [sizeMax]; omega) (by decide)]
      split
      · rfl
      · rename_i fits
        congr 1
        split
        · rfl
        · rename_i partial'
          have low := Nat.mod_le raw pageSize
          have bound := not_and.mp fits partial'
          generalize raw % pageSize = remainder at *
          rw [sizeMax] at bound
          rw [wrapAdd, wrapSub]
          omega

theorem le_sharedRingMappingSize {descriptor : QueueDescriptor} {pageSize size : Nat}
    (sized : sharedRingMappingSize descriptor pageSize = .ok size) :
    validDescriptor descriptor = true ∧
      sizeofSharedRingHeader + descriptor.capacity * descriptor.slotStride ≤ size ∧
      size < 2 ^ 64 := by
  rw [sharedRingMappingSize] at sized
  split at sized
  · cases sized
  · rename_i valid
    obtain ⟨nonzero, valid⟩ := not_or.mp valid
    rw [Bool.not_eq_false] at valid
    refine ⟨valid, ?_⟩
    split at sized
    · cases sized
    · rename_i roomy
      have stride : 0 < descriptor.slotStride := by
        simp only [validDescriptor, ne_eq, decide_eq_true_eq] at valid
        omega
      have raws : sizeofSharedRingHeader + descriptor.capacity * descriptor.slotStride ≤
          sizeMax := by
        have product := (Nat.le_div_iff_mul_le stride).mp (Nat.not_lt.mp roomy)
        have header : sizeofSharedRingHeader ≤ sizeMax := by decide
        omega
      generalize sizeofSharedRingHeader + descriptor.capacity * descriptor.slotStride = raw at *
      have rest := Nat.mod_lt raw (Nat.pos_of_ne_zero nonzero)
      have low := Nat.mod_le raw pageSize
      dsimp only at sized
      generalize raw % pageSize = remainder at *
      rw [sizeMax] at raws sized
      split at sized
      · cases sized
      · injection sized with sized
        rw [← sized]
        split <;> omega

/-- A ring that has been mapped holds all its slots. -/
theorem mapSharedRing_eq_ok {system : RingMapCalls} {header : MappedHeader} {descriptorFd : Int}
    {expected : QueueDescriptor} {size : Nat}
    (mapped : mapSharedRing system header descriptorFd expected = .ok size) :
    ∃ pageSize, system.pageSize = .ok pageSize ∧
      machineMappingSize expected pageSize = .ok size := by
  rw [mapSharedRing] at mapped
  split at mapped
  · cases mapped
  · split at mapped
    · cases mapped
    · dsimp only at mapped
      split at mapped
      · cases mapped
      · split at mapped
        · cases mapped
        · split at mapped
          · cases mapped
          · split at mapped
            · cases mapped
            · rename_i pageSize paged
              split at mapped
              · cases mapped
              · rename_i expectedSize sized
                split at mapped
                · cases mapped
                · rename_i same
                  injection mapped with mapped
                  rw [not_ne_iff.mp same, mapped] at sized
                  exact ⟨pageSize, paged, sized⟩

/-! ## Calls against a hostile peer -/

/-- A call, with the value that each of its loads returns. -/
structure HostileCall where
  request : Request
  loads : Nat → UInt64

/-- Run a call whose loads return `loads` from the index `next` on: its result and the stores
that it makes. -/
def against {Word α : Type} (loads : Nat → UInt64) :
    Nat → Program Word α → α × List (Word × Nat)
  | _, .done result => (result, [])
  | next, .load _ program => against loads (next + 1) (program (loads next).toNat)
  | next, .store word value program =>
      let rest := against loads next program
      (rest.1, (word, value) :: rest.2)

/-- What one call on an endpoint comes to. -/
def HostileCall.outcome (capacity : Nat) (side : Side) (endpoint : Endpoint)
    (call : HostileCall) : Endpoint.Result × List (Side × Nat) :=
  against call.loads 0 (RingSystem.program capacity side endpoint call.request)

def hostileStep (capacity : Nat) (side : Side) (endpoint : Endpoint) (call : HostileCall) :
    Endpoint :=
  (call.outcome capacity side endpoint).1.1

namespace Endpoint

/-- What holds of an endpoint whatever its peer does. -/
structure Contained (capacity : Nat) (endpoint : Endpoint) : Prop where
  index : endpoint.localIndex < capacity
  held : endpoint.held ≤ capacity

/-- The slots of a batch are distinct slots of the ring. -/
structure Grants (capacity maxCount : Nat) (batch : SlotBatch) : Prop where
  positive : 1 ≤ batch.count
  bounded : batch.count ≤ min maxCount capacity
  split : batch.first.count + batch.second.count = batch.count
  distinct : batch.slots.Nodup
  inside : ∀ slot ∈ batch.slots, slot < capacity

/-- Acquiring slots does not move the endpoint, apart from the initialisation. -/
structure Unmoved (capacity : Nat) (loads : Nat → UInt64) (before after : Endpoint) : Prop where
  moved : (after.localPosition = before.localPosition ∧ after.localIndex = before.localIndex) ∨
    (before.initialized = false ∧ after.localPosition = (loads 0).toNat ∧
      after.localIndex = (loads 0).toNat % capacity)
  initialized : before.initialized = true → after.initialized = true

variable {side : Side} {capacity maxCount : Nat} {endpoint : Endpoint}

theorem Contained.grants (contained : Contained capacity endpoint) (small : capacity < 2 ^ 32)
    {count : Nat} (positive : 1 ≤ count) (bounded : count ≤ min maxCount capacity) :
    let firstCount := min count (wrapSub 32 capacity endpoint.localIndex)
    Grants capacity maxCount
      { first := ⟨endpoint.localIndex, firstCount⟩
        second := ⟨0, count - firstCount⟩
        count } := by
  have index := contained.index
  have room : wrapSub 32 capacity endpoint.localIndex = capacity - endpoint.localIndex :=
    wrapSub_of_le index.le small
  rw [room]
  refine ⟨positive, bounded, ?_, ?_, ?_⟩
  · dsimp only
    omega
  · rw [SlotBatch.slots, SlotSpan.slots, SlotSpan.slots, List.nodup_append]
    refine ⟨List.nodup_range', List.nodup_range', fun left member right other same => ?_⟩
    rw [List.mem_range'_1] at member other
    dsimp only at member other
    omega
  · intro slot member
    rw [SlotBatch.slots, SlotSpan.slots, SlotSpan.slots, List.mem_append, List.mem_range'_1,
      List.mem_range'_1] at member
    dsimp only at member
    omega

/-- What a call that acquires slots does. -/
structure Acquires (capacity maxCount : Nat) (loads : Nat → UInt64) (before : Endpoint)
    (result : Result) : Prop where
  contained : Contained capacity result.1
  unmoved : Unmoved capacity loads before result.1
  granted : ∀ batch, result.2 = .ok batch →
    Grants capacity maxCount batch ∧ result.1.held = batch.count ∧ result.1.initialized = true
  refused : ∀ status, result.2 = .error status → result.1.held = before.held

theorem Acquires.of_error {loads : Nat → UInt64} {before after : Endpoint} {status : Errno}
    (contained : Contained capacity after) (unmoved : Unmoved capacity loads before after)
    (held : after.held = before.held) :
    Acquires capacity maxCount loads before (after, .error status) :=
  ⟨contained, unmoved, (fun _ granted => nomatch granted), fun _ _ => held⟩

theorem Acquires.grant {loads : Nat → UInt64} {before : Endpoint}
    (contained : Contained capacity endpoint) (small : capacity < 2 ^ 32)
    (positive : maxCount ≠ 0) (unmoved : Unmoved capacity loads before endpoint)
    (held : endpoint.held = before.held) (initialized : endpoint.initialized = true)
    {available : Nat} (bounded : available ≤ capacity) :
    Acquires capacity maxCount loads before (endpoint.grant capacity maxCount available) := by
  rw [Endpoint.grant]
  split
  · exact .of_error contained unmoved held
  · rename_i some
    have taken : min maxCount available ≤ min maxCount capacity := by omega
    refine ⟨⟨contained.index, ?_⟩, ⟨unmoved.moved, unmoved.initialized⟩, fun batch granted => ?_,
      fun _ refused => nomatch refused⟩
    · dsimp only
      omega
    · injection granted with granted
      rw [← granted]
      exact ⟨contained.grants small (by omega) taken, rfl, initialized⟩

theorem available_le {used : Nat} (bounded : ¬capacity < used) :
    available side capacity used ≤ capacity := by
  cases side with
  | producer => exact Nat.sub_le _ _
  | consumer => exact Nat.not_lt.mp bounded

theorem Acquires.acquireInitialized {loads : Nat → UInt64} {before : Endpoint} {next : Nat}
    (contained : Contained capacity endpoint) (small : capacity < 2 ^ 32)
    (positive : maxCount ≠ 0) (unmoved : Unmoved capacity loads before endpoint)
    (held : endpoint.held = before.held) (initialized : endpoint.initialized = true) :
    Acquires capacity maxCount loads before
        (against loads next (endpoint.acquireInitialized side capacity maxCount)).1 ∧
      (against loads next (endpoint.acquireInitialized side capacity maxCount)).2 = [] := by
  rw [Endpoint.acquireInitialized]
  split
  · exact ⟨.of_error contained unmoved held, rfl⟩
  · rename_i bounded
    split
    · rw [against, against]
      refine ⟨?_, rfl⟩
      have seen : Contained capacity
          { endpoint with cachedPosition := (loads next).toNat } :=
        ⟨contained.index, contained.held⟩
      have still : Unmoved capacity loads before
          { endpoint with cachedPosition := (loads next).toNat } :=
        ⟨unmoved.moved, unmoved.initialized⟩
      rw [refreshed]
      dsimp only
      split
      · exact .of_error seen still held
      · rename_i bounded
        exact .grant seen small positive still held initialized (available_le bounded)
    · exact ⟨.grant contained small positive unmoved held initialized (available_le bounded), rfl⟩

theorem Acquires.acquire (loads : Nat → UInt64) (contained : Contained capacity endpoint)
    (small : capacity < 2 ^ 32) :
    Acquires capacity maxCount loads endpoint
        (against loads 0 (endpoint.acquire side capacity maxCount)).1 ∧
      (against loads 0 (endpoint.acquire side capacity maxCount)).2 = [] := by
  have same : Unmoved capacity loads endpoint endpoint := ⟨.inl ⟨rfl, rfl⟩, id⟩
  have index := contained.index
  rw [Endpoint.acquire]
  split
  · exact ⟨.of_error contained same rfl, rfl⟩
  · rename_i valid
    obtain ⟨positive, -⟩ := not_or.mp valid
    split
    · rename_i initialized
      exact Acquires.acquireInitialized contained small positive same rfl initialized
    · rename_i uninitialized
      rw [against, against]
      have attached : Contained capacity
          (endpoint.attach capacity (loads 0).toNat (loads 1).toNat) :=
        ⟨Nat.mod_lt _ (by omega), contained.held⟩
      have moved : Unmoved capacity loads endpoint
          (endpoint.attach capacity (loads 0).toNat (loads 1).toNat) :=
        ⟨.inr ⟨Bool.not_eq_true _ ▸ uninitialized, rfl, rfl⟩, fun _ => rfl⟩
      exact Acquires.acquireInitialized attached small positive moved rfl rfl

/-- The index stays inside of the ring, also where the 32-bit addition wraps. -/
theorem advanceIndex_lt {index count : Nat} (inside : index < capacity)
    (bounded : count ≤ capacity) (small : capacity < 2 ^ 32) :
    advanceIndex index capacity count < capacity := by
  rw [advanceIndex, wrapAdd]
  split
  · rw [wrapSub]
    omega
  · omega

/-- A call that commits slots is refused, or it stores the advanced position into the word
of its side. -/
theorem commit_outcome (loads : Nat → UInt64) (side : Side) (endpoint : Endpoint)
    (capacity count : Nat) :
    (∃ result, against loads 0 (endpoint.commit side capacity count) = (result, []) ∧
      result.1.localPosition = endpoint.localPosition ∧
      result.1.localIndex = endpoint.localIndex ∧
      result.1.initialized = endpoint.initialized ∧
      result.1.held ≤ endpoint.held) ∨
    (1 ≤ count ∧ count ≤ endpoint.held ∧
      ∃ finished, against loads 0 (endpoint.commit side capacity count) =
        ((endpoint.advance capacity count, finished),
          [(side, (endpoint.advance capacity count).localPosition)])) := by
  rw [Endpoint.commit]
  split
  · exact .inl ⟨_, rfl, rfl, rfl, rfl, Nat.le_refl _⟩
  · rename_i held
    split
    · exact .inr ⟨by omega, by omega, _, rfl⟩
    · exact .inl ⟨_, rfl, rfl, rfl, rfl, Nat.zero_le _⟩

end Endpoint

/-! ## Runs -/

/-- All stores of a sequence of calls, in order. -/
def hostileStores (capacity : Nat) (side : Side) : Endpoint → List HostileCall → List (Side × Nat)
  | _, [] => []
  | endpoint, call :: calls =>
      (call.outcome capacity side endpoint).2 ++
        hostileStores capacity side (hostileStep capacity side endpoint call) calls

theorem hostileStores_concat (capacity : Nat) (side : Side) (endpoint : Endpoint)
    (calls : List HostileCall) (call : HostileCall) :
    hostileStores capacity side endpoint (calls ++ [call]) =
      hostileStores capacity side endpoint calls ++
        (call.outcome capacity side (run (hostileStep capacity side) endpoint calls)).2 := by
  induction calls generalizing endpoint with
  | nil =>
      rw [List.nil_append, hostileStores, hostileStores, hostileStores, List.append_nil]
      rfl
  | cons first calls induction =>
      rw [List.cons_append, hostileStores, induction, hostileStores, run_cons, List.append_assoc]

/-- The endpoint stays contained, and the last value that it has stored into its word is its
position. -/
structure Confined (capacity : Nat) (side : Side) (stores : List (Side × Nat))
    (endpoint : Endpoint) : Prop where
  contained : endpoint.Contained capacity
  ready : endpoint.held ≠ 0 → endpoint.initialized = true
  stored : stores ≠ [] → endpoint.initialized = true ∧
    stores.getLast? = some (side, endpoint.localPosition)

theorem Confined.step {capacity : Nat} {side : Side} {stores : List (Side × Nat)}
    {endpoint : Endpoint} (confined : Confined capacity side stores endpoint)
    (small : capacity < 2 ^ 32) (call : HostileCall) :
    Confined capacity side (stores ++ (call.outcome capacity side endpoint).2)
      (hostileStep capacity side endpoint call) := by
  obtain ⟨request, loads⟩ := call
  cases request with
  | acquire maxCount =>
      obtain ⟨acquires, silent⟩ :=
        @Endpoint.Acquires.acquire side _ maxCount _ loads confined.contained small
      change Confined capacity side
        (stores ++ (against loads 0 (endpoint.acquire side capacity maxCount)).2)
        (against loads 0 (endpoint.acquire side capacity maxCount)).1.1
      rw [silent, List.append_nil]
      generalize (against loads 0 (endpoint.acquire side capacity maxCount)).1 = result at acquires
      refine ⟨acquires.contained, fun holding => ?_, fun some => ?_⟩
      · rcases answer : result.2 with status | batch
        · rw [acquires.refused status answer] at holding
          exact acquires.unmoved.initialized (confined.ready holding)
        · exact (acquires.granted batch answer).2.2
      · obtain ⟨initialized, last⟩ := confined.stored some
        refine ⟨acquires.unmoved.initialized initialized, last.trans ?_⟩
        rcases acquires.unmoved.moved with ⟨position, -⟩ | ⟨fresh, -⟩
        · rw [position]
        · rw [initialized] at fresh
          cases fresh
  | commit count =>
      change Confined capacity side
        (stores ++ (against loads 0 (endpoint.commit side capacity count)).2)
        (against loads 0 (endpoint.commit side capacity count)).1.1
      have index := confined.contained.index
      have held := confined.contained.held
      rcases Endpoint.commit_outcome loads side endpoint capacity count with
        ⟨result, outcome, position, same, initialized, less⟩ | ⟨positive, enough, finished, outcome⟩
      · rw [outcome, List.append_nil]
        refine ⟨⟨same ▸ index, less.trans held⟩, fun holding => ?_, fun some => ?_⟩
        · rw [initialized]
          exact confined.ready fun none => holding (Nat.le_zero.mp (none ▸ less))
        · rw [initialized, position]
          exact confined.stored some
      · have initialized : endpoint.initialized = true := confined.ready (by omega)
        rw [outcome]
        refine ⟨⟨?_, Nat.zero_le _⟩, fun _ => initialized, fun _ => ⟨initialized, ?_⟩⟩
        · exact Endpoint.advanceIndex_lt index (enough.trans held) small
        · exact List.getLast?_concat ..

theorem confined_run {capacity : Nat} (positive : 0 < capacity) (small : capacity < 2 ^ 32)
    (side : Side) (calls : List HostileCall) :
    Confined capacity side (hostileStores capacity side {} calls)
      (run (hostileStep capacity side) {} calls) := by
  induction calls using List.reverseRecOn with
  | nil =>
      exact ⟨⟨positive, Nat.zero_le _⟩, fun held => absurd rfl held, fun some => absurd rfl some⟩
  | append_singleton calls call induction =>
      rw [hostileStores_concat, run_concat]
      exact induction.step small call

/-- What a call on an endpoint does in a mapping of `size` bytes, after the calls that have
stored `stores`. -/
structure StaysInBounds (descriptor : QueueDescriptor) (size : Nat) (side : Side)
    (stores : List (Side × Nat)) (before : Endpoint) (call : HostileCall) : Prop where
  index : before.localIndex < descriptor.capacity
  position : stores ≠ [] → stores.getLast? = some (side, before.localPosition)
  /-- A successful `producer_reserve` or `consumer_peek`. -/
  granted : ∀ maxCount batch, call.request = .acquire maxCount →
    (call.outcome descriptor.capacity side before).1.2 = .ok batch →
      1 ≤ batch.count ∧ batch.count ≤ min maxCount descriptor.capacity ∧
      batch.first.count + batch.second.count = batch.count ∧
      batch.slots.Nodup ∧
      ∀ slot ∈ batch.slots, sizeofSharedRingHeader ≤ slotAt descriptor slot ∧
        slotAt descriptor slot + descriptor.slotStride ≤ size
  /-- A failing `producer_reserve` or `consumer_peek`. -/
  refused : ∀ maxCount status, call.request = .acquire maxCount →
    (call.outcome descriptor.capacity side before).1.2 = .error status →
      (call.outcome descriptor.capacity side before).1.1.held = before.held ∧
      (((call.outcome descriptor.capacity side before).1.1.localPosition =
            before.localPosition ∧
          (call.outcome descriptor.capacity side before).1.1.localIndex = before.localIndex) ∨
        (before.initialized = false ∧
          (call.outcome descriptor.capacity side before).1.1.localPosition =
            (call.loads 0).toNat ∧
          (call.outcome descriptor.capacity side before).1.1.localIndex =
            (call.loads 0).toNat % descriptor.capacity))
  /-- What is stored: nothing by `producer_reserve` and `consumer_peek`, and else at most the
  own position, advanced by the slots that were handed over. -/
  stored : (call.outcome descriptor.capacity side before).2 = [] ∨
    ∃ count, call.request = .commit count ∧ 1 ≤ count ∧ count ≤ before.held ∧
      (call.outcome descriptor.capacity side before).2 =
        [(side, (before.localPosition + count) % 2 ^ 64)]

theorem slotAt_inside {descriptor : QueueDescriptor} {size slot : Nat}
    (holds : sizeofSharedRingHeader + descriptor.capacity * descriptor.slotStride ≤ size)
    (inside : slot < descriptor.capacity) :
    sizeofSharedRingHeader ≤ slotAt descriptor slot ∧
      slotAt descriptor slot + descriptor.slotStride ≤ size := by
  have product : (slot + 1) * descriptor.slotStride ≤
      descriptor.capacity * descriptor.slotStride := Nat.mul_le_mul_right _ inside
  rw [Nat.add_mul, Nat.one_mul] at product
  rw [slotAt]
  omega

/-- The size of a ring's mapping is exact, a ring that is mapped has that size, and whatever
the peer stores, every call on an endpoint stays in the mapping. -/
theorem ring_access_in_bounds (kind : QueueKind) (capacity slotStride : UInt32)
    (pageSize : UInt64) (size : Nat)
    (sized : machineMappingSize ⟨kind, capacity.toNat, slotStride.toNat⟩ pageSize.toNat =
      .ok size)
    (side : Side) (calls : List HostileCall) (call : HostileCall) :
    size < 2 ^ 64 ∧
      sizeofSharedRingHeader + capacity.toNat * slotStride.toNat ≤ size ∧
      sharedRingMappingSize ⟨kind, capacity.toNat, slotStride.toNat⟩ pageSize.toNat = .ok size ∧
      (∀ system header descriptorFd mapped, system.pageSize = .ok pageSize.toNat →
        mapSharedRing system header descriptorFd ⟨kind, capacity.toNat, slotStride.toNat⟩ =
          .ok mapped → mapped = size) ∧
      StaysInBounds ⟨kind, capacity.toNat, slotStride.toNat⟩ size side
        (hostileStores capacity.toNat side {} calls)
        (run (hostileStep capacity.toNat side) {} calls) call := by
  have small : capacity.toNat < 2 ^ 32 := capacity.toNat_lt
  have exact' : sharedRingMappingSize ⟨kind, capacity.toNat, slotStride.toNat⟩ pageSize.toNat =
      .ok size := by
    rw [← sized]
    exact (machineMappingSize_eq small slotStride.toNat_lt pageSize.toNat_lt).symm
  obtain ⟨valid, holds, fits⟩ := le_sharedRingMappingSize exact'
  have maps : ∀ system header descriptorFd mapped, system.pageSize = .ok pageSize.toNat →
      mapSharedRing system header descriptorFd ⟨kind, capacity.toNat, slotStride.toNat⟩ =
        .ok mapped → mapped = size := by
    intro system header descriptorFd mapped paged done
    obtain ⟨page, same, computed⟩ := mapSharedRing_eq_ok done
    rw [paged] at same
    injection same with same
    rw [← same, sized] at computed
    injection computed with computed
    exact computed.symm
  have positive : 0 < capacity.toNat := by
    simp only [validDescriptor, ne_eq, decide_eq_true_eq] at valid
    omega
  have confined := confined_run positive small side calls
  generalize run (hostileStep capacity.toNat side) {} calls = before at confined ⊢
  obtain ⟨request, loads⟩ := call
  refine ⟨fits, holds, exact', maps, confined.contained.index, fun some => (confined.stored some).2,
    ?_, ?_, ?_⟩
  · rintro maxCount batch rfl answer
    obtain ⟨grants, -⟩ := (@Endpoint.Acquires.acquire side _ maxCount _ loads
      confined.contained small).1.granted batch answer
    exact ⟨grants.positive, grants.bounded, grants.split, grants.distinct,
      fun slot member => slotAt_inside holds (grants.inside slot member)⟩
  · rintro maxCount status rfl answer
    have acquires := (@Endpoint.Acquires.acquire side _ maxCount _ loads
      confined.contained small).1
    exact ⟨acquires.refused status answer, acquires.unmoved.moved⟩
  · cases request with
    | acquire maxCount =>
        exact .inl (@Endpoint.Acquires.acquire side _ maxCount _ loads confined.contained small).2
    | commit count =>
        rcases Endpoint.commit_outcome loads side before capacity.toNat count with
          ⟨result, outcome, -⟩ | ⟨least, enough, finished, outcome⟩
        · exact .inl (congrArg Prod.snd outcome)
        · exact .inr ⟨count, rfl, least, enough, congrArg Prod.snd outcome⟩

/-- A consumer whose peer claims to have published too much. -/
theorem ring_access_in_bounds_forged :
    (HostileCall.outcome 4 .consumer {}
        { request := .acquire 3
          loads := fun index => if index = 0 then 0 else 5 }).1.2 = .error .eproto ∧
      StaysInBounds ⟨.send, 4, 64⟩ 4096 .consumer [] {}
        { request := .acquire 3
          loads := fun index => if index = 0 then 0 else 5 } := by
  constructor
  · rfl
  · exact (ring_access_in_bounds .send 4 64 4096 4096 (by decide) .consumer [] _).2.2.2.2

end Ugdr.Queue
