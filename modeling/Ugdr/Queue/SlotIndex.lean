import Ugdr.Queue.HostilePeer
import Ugdr.Queue.RingEndpoint

/-! # The slot index of an endpoint

An endpoint keeps the index of its next slot beside its 64-bit position and advances it in 32
bits, with at most one subtraction of the capacity. The index belongs to the position as long
as the addition does not wrap, which takes a capacity above `2 ^ 31`.
-/

namespace Ugdr.Queue

open Machine Execution

/-! ## Histories -/

/-- An endpoint with what its calls have done. -/
structure SlotHistory where
  endpoint : Endpoint := {}
  /-- The slot index that the endpoint was initialised with. -/
  start : Nat := 0
  /-- How many slots were published or released. -/
  total : Nat := 0
  /-- The slots of the last batch. -/
  handed : List Nat := []
  /-- The slots that were published or released, in order. -/
  slots : List Nat := []

namespace SlotHistory

/-- One call more. -/
def observe (capacity : Nat) (side : Side) (history : SlotHistory) (call : HostileCall) :
    SlotHistory :=
  let result := (call.outcome capacity side history.endpoint).1
  match call.request, result.2 with
  | .acquire _, .ok batch =>
      { history with
        endpoint := result.1
        start := if history.endpoint.initialized then history.start else result.1.localIndex
        handed := batch.slots }
  | .acquire _, .error _ =>
      { history with
        endpoint := result.1
        start := if history.endpoint.initialized then history.start else result.1.localIndex }
  | .commit count, .ok _ =>
      { history with
        endpoint := result.1
        total := history.total + count
        slots := history.slots ++ history.handed.take count }
  | .commit _, .error _ => { history with endpoint := result.1 }

/-- The slot index is that of the position, and so were those of all slots before. -/
structure Follows (capacity : Nat) (history : SlotHistory) : Prop where
  index : history.endpoint.localIndex = (history.start + history.total) % capacity
  slots : history.slots = window capacity history.start history.total

/-- The call publishes or releases so many slots that the 32-bit addition wraps. -/
def Carries (capacity : Nat) (history : SlotHistory) (call : HostileCall) : Prop :=
  ∃ count, call.request = .commit count ∧ history.endpoint.held ≠ 0 ∧
    count ≤ history.endpoint.held ∧ 2 ^ 32 ≤ (history.start + history.total) % capacity + count

/-- What holds of a history whatever the counts are. -/
structure Sound (capacity : Nat) (history : SlotHistory) : Prop where
  contained : history.endpoint.Contained capacity
  start : history.start < capacity
  handed : history.endpoint.held ≠ 0 → history.endpoint.initialized = true ∧
    history.handed = window capacity history.endpoint.localIndex history.endpoint.held
  fresh : history.endpoint.initialized = false →
    history.endpoint.localIndex = history.start ∧ history.total = 0 ∧ history.slots = []

end SlotHistory

/-! ## Batches -/

namespace Endpoint

variable {side : Side} {capacity maxCount : Nat} {endpoint : Endpoint}

/-- A batch starts at the slot index. -/
def Serves (capacity : Nat) (result : Result) : Prop :=
  ∀ batch, result.2 = .ok batch →
    batch.slots = window capacity result.1.localIndex result.1.held

theorem Serves.of_error {after : Endpoint} {status : Errno} :
    Serves capacity (after, .error status) :=
  fun _ granted => nomatch granted

theorem Serves.grant (index : endpoint.localIndex < capacity) (small : capacity < 2 ^ 32)
    {available : Nat} (bounded : available ≤ capacity) :
    Serves capacity (endpoint.grant capacity maxCount available) := by
  unfold Endpoint.grant
  split
  · exact .of_error
  · intro batch granted
    injection granted with granted
    have slots := @batch_slots_eq capacity endpoint.localIndex (min maxCount available)
      (by omega) small (by omega)
    rw [Nat.mod_eq_of_lt index] at slots
    rw [← granted]
    exact slots

theorem Serves.acquireInitialized (loads : Nat → UInt64) (next : Nat)
    (index : endpoint.localIndex < capacity) (small : capacity < 2 ^ 32) :
    Serves capacity
      (against loads next (endpoint.acquireInitialized side capacity maxCount)).1 := by
  unfold Endpoint.acquireInitialized
  simp only
  split
  · exact .of_error
  · rename_i bounded
    split
    · rw [against, against, refreshed]
      simp only
      split
      · exact .of_error
      · rename_i bounded
        refine Serves.grant ?_ small (available_le bounded)
        exact index
    · exact .grant index small (available_le bounded)

theorem Serves.acquire (loads : Nat → UInt64) (index : endpoint.localIndex < capacity)
    (small : capacity < 2 ^ 32) :
    Serves capacity (against loads 0 (endpoint.acquire side capacity maxCount)).1 := by
  unfold Endpoint.acquire
  split
  · exact .of_error
  · split
    · exact .acquireInitialized loads 0 index small
    · rw [against, against]
      exact .acquireInitialized loads 2 (Nat.mod_lt _ (by omega)) small

/-- A call that commits slots fails, or it hands over that many. -/
theorem commit_result (loads : Nat → UInt64) (side : Side) (endpoint : Endpoint)
    (capacity count : Nat) :
    (∃ status, (against loads 0 (endpoint.commit side capacity count)).1 =
        (endpoint, .error status) ∧ (endpoint.held = 0 ∨ endpoint.held < count)) ∨
      endpoint.held ≠ 0 ∧ count ≤ endpoint.held ∧ ∃ after finished,
        (against loads 0 (endpoint.commit side capacity count)).1 = (after, .ok finished) ∧
          after.held = 0 ∧ after.initialized = endpoint.initialized ∧
          after.localIndex =
            if count = 0 then endpoint.localIndex
            else advanceIndex endpoint.localIndex capacity count := by
  unfold Endpoint.commit
  simp only
  split
  · rename_i refused
    exact .inl ⟨_, rfl, refused⟩
  · rename_i held
    rw [not_or] at held
    split
    · exact .inr ⟨held.1, Nat.not_lt.mp held.2, _, _, rfl, rfl, rfl, rfl⟩
    · rename_i none
      refine .inr ⟨held.1, Nat.not_lt.mp held.2, _, _, rfl, rfl, rfl, ?_⟩
      exact (if_pos (not_not.mp none)).symm

/-- Where the addition wraps, the index misses the slot of the position. -/
theorem advanceIndex_ne {position count : Nat} (positive : 0 < capacity) (small : capacity < 2 ^ 32)
    (le : count ≤ capacity) (wraps : 2 ^ 32 ≤ position % capacity + count) :
    advanceIndex (position % capacity) capacity count ≠ (position + count) % capacity := by
  have bound := Nat.mod_lt position positive
  rw [add_mod_capacity le positive, if_neg (by omega), advanceIndex, wrapAdd]
  have sum : (position % capacity + count) % 2 ^ 32 = position % capacity + count - 2 ^ 32 := by
    rw [Nat.mod_eq_sub_mod wraps, Nat.mod_eq_of_lt (by omega)]
  rw [sum, if_neg (by omega)]
  omega

end Endpoint

theorem window_append (capacity position left right : Nat) :
    window capacity position left ++ window capacity (position + left) right =
      window capacity position (left + right) := by
  simp [window, List.range_add, Nat.add_assoc]

theorem window_mod (capacity position count : Nat) :
    window capacity (position % capacity) count = window capacity position count := by
  simp [window, Nat.add_mod]

/-! ## One call -/

namespace SlotHistory

variable {side : Side} {capacity : Nat} {history : SlotHistory}

theorem Sound.observe (sound : Sound capacity history) (small : capacity < 2 ^ 32)
    (call : HostileCall) : Sound capacity (history.observe capacity side call) := by
  obtain ⟨request, loads⟩ := call
  obtain ⟨contained, start, handed, fresh⟩ := sound
  cases request with
  | acquire maxCount =>
      have acquires := (@Endpoint.Acquires.acquire side _ maxCount _ loads contained small).1
      have serves := @Endpoint.Serves.acquire side _ maxCount _ loads contained.index small
      unfold SlotHistory.observe HostileCall.outcome RingSystem.program
      simp only
      generalize (against loads 0 (history.endpoint.acquire side capacity maxCount)).1 = result
        at acquires serves
      have begun : (if history.endpoint.initialized then history.start
          else result.1.localIndex) < capacity := by
        split
        · exact start
        · exact acquires.contained.index
      have first : result.1.initialized = false → result.1.localIndex =
          (if history.endpoint.initialized then history.start else result.1.localIndex) ∧
            history.total = 0 ∧ history.slots = [] := by
        intro uninitialized
        have before : history.endpoint.initialized = false := by
          rw [← Bool.not_eq_true]
          intro initialized
          rw [acquires.unmoved.initialized initialized] at uninitialized
          cases uninitialized
        rw [before]
        exact ⟨rfl, (fresh before).2⟩
      rcases answer : result.2 with status | batch
      · refine ⟨acquires.contained, begun, fun holding => ?_, first⟩
        have held := acquires.refused status answer
        have kept : history.endpoint.held ≠ 0 := by
          rw [← held]
          exact holding
        obtain ⟨initialized, slots⟩ := handed kept
        have index : result.1.localIndex = history.endpoint.localIndex := by
          rcases acquires.unmoved.moved with ⟨-, index⟩ | ⟨uninitialized, -⟩
          · exact index
          · rw [initialized] at uninitialized
            cases uninitialized
        refine ⟨acquires.unmoved.initialized initialized, ?_⟩
        simp only
        rw [index, held]
        exact slots
      · obtain ⟨-, -, initialized⟩ := acquires.granted batch answer
        exact ⟨acquires.contained, begun, fun _ => ⟨initialized, serves batch answer⟩, first⟩
  | commit count =>
      unfold SlotHistory.observe HostileCall.outcome RingSystem.program
      simp only
      rcases Endpoint.commit_result loads side history.endpoint capacity count with
        ⟨status, outcome, -⟩ | ⟨held, enough, after, finished, outcome, none, initialized, index⟩
      · rw [outcome]
        exact ⟨contained, start, handed, fresh⟩
      · rw [outcome]
        have ready := (handed held).1
        refine ⟨⟨?_, none.trans_le (Nat.zero_le _)⟩, start, fun some => absurd none some,
          fun uninitialized => ?_⟩
        · rw [index]
          split
          · exact contained.index
          · exact Endpoint.advanceIndex_lt contained.index (enough.trans contained.held) small
        · have same : after.initialized = false := uninitialized
          rw [initialized, ready] at same
          cases same

/-- A call keeps the index on the position unless it carries, and then it does not. -/
theorem Follows.observe_iff (follows : Follows capacity history) (sound : Sound capacity history)
    (small : capacity < 2 ^ 32) (call : HostileCall) :
    Follows capacity (history.observe capacity side call) ↔ ¬history.Carries capacity call := by
  obtain ⟨request, loads⟩ := call
  obtain ⟨contained, start, handed, fresh⟩ := sound
  have bound := contained.index
  cases request with
  | acquire maxCount =>
      have acquires := (@Endpoint.Acquires.acquire side _ maxCount _ loads contained small).1
      refine iff_of_true ?_ fun ⟨_, other, _⟩ => nomatch other
      unfold SlotHistory.observe HostileCall.outcome RingSystem.program
      simp only
      generalize (against loads 0 (history.endpoint.acquire side capacity maxCount)).1 = result
        at acquires
      have kept : Follows capacity
          { history with
            endpoint := result.1
            start := if history.endpoint.initialized then history.start
              else result.1.localIndex } := by
        cases initialized : history.endpoint.initialized with
        | true =>
            refine ⟨?_, follows.slots⟩
            rcases acquires.unmoved.moved with ⟨-, index⟩ | ⟨uninitialized, -⟩
            · exact index.trans follows.index
            · rw [initialized] at uninitialized
              cases uninitialized
        | false =>
            obtain ⟨-, none, empty⟩ := fresh initialized
            refine ⟨?_, ?_⟩
            · simp only [none]
              exact (Nat.mod_eq_of_lt acquires.contained.index).symm
            · simp only [none, empty]
              rfl
      rcases answer : result.2 with status | batch
      · exact kept
      · exact ⟨kept.index, kept.slots⟩
  | commit count =>
      unfold SlotHistory.observe HostileCall.outcome RingSystem.program
      simp only
      rcases Endpoint.commit_result loads side history.endpoint capacity count with
        ⟨status, outcome, refused⟩ | ⟨held, enough, after, finished, outcome, none, -, index⟩
      · rw [outcome]
        refine iff_of_true ⟨follows.index, follows.slots⟩ ?_
        rintro ⟨other, same, some, within, -⟩
        injection same with same
        omega
      · rw [outcome]
        have le : count ≤ capacity := enough.trans contained.held
        have taken : (history.handed.take count) =
            window capacity (history.start + history.total) count := by
          rw [(handed held).2, window_take, Nat.min_eq_left enough, follows.index, window_mod]
        have slots : history.slots ++ history.handed.take count =
            window capacity history.start (history.total + count) := by
          rw [taken, follows.slots, window_append]
        rw [follows.index] at index
        constructor
        · rintro ⟨same, -⟩ ⟨other, request, -, -, wraps⟩
          injection request with request
          subst request
          have same : after.localIndex = (history.start + (history.total + count)) % capacity :=
            same
          have below := Nat.mod_lt (history.start + history.total) (show 0 < capacity by omega)
          have some : count ≠ 0 := by
            rintro rfl
            omega
          rw [index, if_neg some, ← Nat.add_assoc] at same
          exact Endpoint.advanceIndex_ne (by omega) small le wraps same
        · intro steady
          refine ⟨?_, slots⟩
          simp only
          rw [index, ← Nat.add_assoc]
          split
          · rename_i none
            rw [none, Nat.add_zero]
          · apply Endpoint.advanceIndex_of_lt (by omega) le
            rw [← Nat.not_le]
            exact fun wraps => steady ⟨count, rfl, held, enough, wraps⟩

/-! ## Runs -/

theorem sound_initial (positive : 0 < capacity) : Sound capacity {} :=
  ⟨⟨positive, Nat.zero_le _⟩, positive, fun held => absurd rfl held, fun _ => ⟨rfl, rfl, rfl⟩⟩

theorem follows_initial (capacity : Nat) : Follows capacity {} :=
  ⟨(Nat.zero_mod capacity).symm, rfl⟩

theorem follows_along_iff (follows : Follows capacity history) (sound : Sound capacity history)
    (small : capacity < 2 ^ 32) (calls : List HostileCall) :
    Along (observe capacity side)
        (fun history call => Follows capacity (history.observe capacity side call)) history calls ↔
      Along (observe capacity side) (fun history call => ¬history.Carries capacity call) history
        calls := by
  induction calls generalizing history with
  | nil => exact Iff.rfl
  | cons call calls induction =>
      have next := @Follows.observe_iff side _ _ follows sound small call
      constructor
      · rintro ⟨here, rest⟩
        exact ⟨next.mp here, (induction here (sound.observe small call)).mp rest⟩
      · rintro ⟨steady, rest⟩
        exact ⟨next.mpr steady, (induction (next.mpr steady) (sound.observe small call)).mpr rest⟩

/-- The index belongs to the position after each of the calls. -/
def KeepsIndex (capacity : Nat) (side : Side) (calls : List HostileCall) : Prop :=
  Along (observe capacity side)
    (fun history call => Follows capacity (history.observe capacity side call)) {} calls

/-- No call makes the addition wrap. -/
def NeverCarries (capacity : Nat) (side : Side) (calls : List HostileCall) : Prop :=
  Along (observe capacity side) (fun history call => ¬history.Carries capacity call) {} calls

theorem keepsIndex_iff (positive : 0 < capacity) (small : capacity < 2 ^ 32)
    (calls : List HostileCall) :
    KeepsIndex capacity side calls ↔ NeverCarries capacity side calls :=
  follows_along_iff (follows_initial capacity) (sound_initial positive) small calls

theorem follows_run (positive : 0 < capacity) (small : capacity < 2 ^ 32)
    {calls : List HostileCall} (steady : NeverCarries capacity side calls) :
    Follows capacity (run (observe capacity side) {} calls) := by
  have preserved : ∀ history call, ¬history.Carries capacity call →
      Sound capacity history ∧ Follows capacity history →
        Sound capacity (history.observe capacity side call) ∧
          Follows capacity (history.observe capacity side call) := by
    rintro history call steady ⟨sound, follows⟩
    exact ⟨sound.observe small call, (follows.observe_iff sound small call).mpr steady⟩
  exact (run_invariant_along preserved
    ⟨sound_initial positive, follows_initial capacity⟩ steady).2

/-! ## Capacities -/

/-- A ring up to `2 ^ 31` slots has no index that a batch could carry over. -/
theorem not_carries (sound : Sound capacity history) (half : capacity ≤ 2 ^ 31)
    (call : HostileCall) : ¬history.Carries capacity call := by
  rintro ⟨count, -, -, enough, wraps⟩
  have held := sound.contained.held
  have below := Nat.mod_lt (history.start + history.total)
    (Nat.zero_lt_of_lt sound.contained.index)
  omega

theorem neverCarries_of_le (positive : 0 < capacity) (half : capacity ≤ 2 ^ 31) (side : Side)
    (calls : List HostileCall) : NeverCarries capacity side calls := by
  have along : ∀ history, Sound capacity history →
      Along (observe capacity side) (fun history call => ¬history.Carries capacity call) history
        calls := by
    induction calls with
    | nil => exact fun _ _ => trivial
    | cons call calls induction =>
        intro history sound
        exact ⟨not_carries sound half call, induction _ (sound.observe (by omega) call)⟩
  exact along {} (sound_initial positive)

/-- All slots but one are published and released, so that the index is that of the last slot;
then all slots are reserved. -/
def lapping (capacity : Nat) : List HostileCall :=
  [{ request := .acquire (capacity - 1), loads := fun _ => 0 },
    { request := .commit (capacity - 1), loads := fun _ => 0 },
    { request := .acquire capacity, loads := fun _ => .ofNat (capacity - 1) }]

theorem observe_fill (large : 1 < capacity) :
    observe capacity .producer {} ⟨.acquire (capacity - 1), fun _ => 0⟩ =
      { endpoint := { held := capacity - 1, initialized := true }
        handed :=
          SlotBatch.slots
            { first := ⟨0, min (capacity - 1) (wrapSub 32 capacity 0)⟩
              second := ⟨0, capacity - 1 - min (capacity - 1) (wrapSub 32 capacity 0)⟩
              count := capacity - 1 } } := by
  have some : capacity - 1 ≠ 0 := by omega
  have nonzero : capacity ≠ 0 := by omega
  have enough : ¬capacity < capacity - 1 := by omega
  have short : min (capacity - 1) capacity = capacity - 1 := by omega
  have none : wrapSub 64 0 0 = 0 := rfl
  simp only [observe, HostileCall.outcome, RingSystem.program, Endpoint.acquire, some,
    against, Endpoint.acquireInitialized, Endpoint.attach, Endpoint.occupied,
    UInt64.toNat_zero, none, Endpoint.available, Endpoint.grant, Nat.sub_zero, short, nonzero,
    enough, Nat.not_lt_zero, ne_eq, not_true_eq_false, or_self, if_false, Bool.false_eq_true,
    Nat.zero_mod]

theorem observe_publish (large : 1 < capacity) (small : capacity < 2 ^ 32) (handed : List Nat) :
    observe capacity .producer
        { endpoint := { held := capacity - 1, initialized := true }, handed }
        ⟨.commit (capacity - 1), fun _ => 0⟩ =
      { endpoint :=
          { localPosition := capacity - 1, localIndex := capacity - 1, initialized := true }
        total := capacity - 1
        handed
        slots := handed.take (capacity - 1) } := by
  have some : capacity - 1 ≠ 0 := by omega
  have index : Endpoint.advanceIndex 0 capacity (capacity - 1) = capacity - 1 := by
    rw [Endpoint.advanceIndex, wrapAdd_of_lt (by omega), Nat.zero_add, if_neg (by omega)]
  have position : wrapAdd 64 0 (capacity - 1) = capacity - 1 := by
    rw [wrapAdd_of_lt (by omega), Nat.zero_add]
  simp only [observe, HostileCall.outcome, RingSystem.program, Endpoint.commit, some, against,
    Endpoint.advance, index, position, Nat.lt_irrefl, ne_eq, not_false_eq_true, or_self, if_false,
    if_true, Nat.zero_add, List.nil_append]

theorem observe_refill (large : 1 < capacity) (small : capacity < 2 ^ 32)
    (handed slots : List Nat) :
    let next := observe capacity .producer
      { endpoint :=
          { localPosition := capacity - 1, localIndex := capacity - 1, initialized := true }
        total := capacity - 1, handed, slots }
      ⟨.acquire capacity, fun _ => .ofNat (capacity - 1)⟩
    next.endpoint.held = capacity ∧ next.start = 0 ∧ next.total = capacity - 1 := by
  have nonzero : capacity ≠ 0 := by omega
  have enough : ¬capacity < capacity - 1 := by omega
  have load : (UInt64.ofNat (capacity - 1)).toNat = capacity - 1 := by
    rw [UInt64.toNat_ofNat', Nat.mod_eq_of_lt (by omega)]
  have used : wrapSub 64 (capacity - 1) 0 = capacity - 1 := wrapSub_of_le (by omega) (by omega)
  have freed : wrapSub 64 (capacity - 1) (capacity - 1) = 0 := by
    rw [wrapSub_of_le (Nat.le_refl _) (by omega), Nat.sub_self]
  have room : capacity - (capacity - 1) < capacity := by omega
  simp only [observe, HostileCall.outcome, RingSystem.program, Endpoint.acquire, nonzero,
    against, Endpoint.acquireInitialized, Endpoint.refreshed, Endpoint.occupied, load, used,
    freed, Endpoint.available, Endpoint.grant, Nat.sub_zero, enough, room, Nat.not_lt_zero, ne_eq,
    not_true_eq_false, or_self, if_false, if_true, Nat.min_self, and_self]

theorem lapping_carries (large : 2 ^ 31 < capacity) (small : capacity < 2 ^ 32) :
    (run (observe capacity .producer) {} (lapping capacity)).Carries capacity
      ⟨.commit capacity, fun _ => 0⟩ := by
  simp only [lapping, run_cons, run_nil]
  rw [observe_fill (by omega), observe_publish (by omega) small]
  obtain ⟨held, start, total⟩ := observe_refill (by omega) small _ _
  refine ⟨capacity, rfl, ?_, held.ge, ?_⟩
  · rw [held]
    omega
  · rw [start, total, Nat.zero_add, Nat.mod_eq_of_lt (by omega)]
    omega

/-- Publishing all of them is too much for any larger ring. -/
theorem not_neverCarries_lapping (large : 2 ^ 31 < capacity) (small : capacity < 2 ^ 32) :
    ¬NeverCarries capacity .producer
      (lapping capacity ++ [{ request := .commit capacity, loads := fun _ => 0 }]) := by
  intro steady
  exact (along_append.mp steady).2.1 (lapping_carries large small)

/-- The capacities for which the index belongs to the position in every run. -/
theorem keepsIndex_all_iff (positive : 0 < capacity) (small : capacity < 2 ^ 32) :
    (∀ side calls, KeepsIndex capacity side calls) ↔ capacity ≤ 2 ^ 31 := by
  constructor
  · intro keeps
    by_contra large
    exact not_neverCarries_lapping (Nat.not_le.mp large) small
      ((keepsIndex_iff positive small _).mp (keeps .producer _))
  · intro half side calls
    exact (keepsIndex_iff positive small calls).mpr (neverCarries_of_le positive half side calls)

end SlotHistory

open SlotHistory

theorem capacity_positive {kind : QueueKind} {capacity slotStride : UInt32} {pageSize : UInt64}
    {size : Nat}
    (sized : machineMappingSize ⟨kind, capacity.toNat, slotStride.toNat⟩ pageSize.toNat =
      .ok size) : 0 < capacity.toNat := by
  rw [machineMappingSize_eq capacity.toNat_lt slotStride.toNat_lt pageSize.toNat_lt] at sized
  obtain ⟨valid, -⟩ := le_sharedRingMappingSize sized
  simp only [validDescriptor, ne_eq, decide_eq_true_eq] at valid
  omega

/-- The slot indices of both endpoints belong to their positions after each call, exactly if no
call publishes or releases so many slots that the 32-bit addition wraps. Then two endpoints that
began with one index use the same memory for their slots of the same number. -/
theorem slot_index_follows_iff (kind : QueueKind) (capacity slotStride : UInt32)
    (pageSize : UInt64) (size : Nat)
    (sized : machineMappingSize ⟨kind, capacity.toNat, slotStride.toNat⟩ pageSize.toNat =
      .ok size)
    (calls : Side → List HostileCall) :
    ((∀ side, KeepsIndex capacity.toNat side (calls side)) ↔
        ∀ side, NeverCarries capacity.toNat side (calls side)) ∧
      ((∀ side, NeverCarries capacity.toNat side (calls side)) →
        let history side := run (observe capacity.toNat side) {} (calls side)
        (history .producer).start = (history .consumer).start →
          ∀ number < (history .producer).total, number < (history .consumer).total →
            ((history .producer).slots[number]?).map
                (slotAt ⟨kind, capacity.toNat, slotStride.toNat⟩) =
              some (slotAt ⟨kind, capacity.toNat, slotStride.toNat⟩
                (((history .producer).start + number) % capacity.toNat)) ∧
            (history .consumer).slots[number]? = (history .producer).slots[number]?) := by
  have positive := capacity_positive sized
  have small := capacity.toNat_lt
  refine ⟨forall_congr' fun side => keepsIndex_iff positive small (calls side), ?_⟩
  intro steady history same number produced consumed
  have slot : ∀ side, number < (history side).total →
      (history side).slots[number]? = some (((history side).start + number) % capacity.toNat) := by
    intro side below
    rw [(follows_run positive small (steady side)).slots, window, List.getElem?_map,
      List.getElem?_range below]
    rfl
  rw [slot .producer produced, slot .consumer consumed, same]
  exact ⟨rfl, rfl⟩

/-- A ring of four slots whose producer wraps around, with its consumer behind it. -/
def fourSlotCalls : Side → List HostileCall
  | .producer => lapping 4 ++ [{ request := .commit 4, loads := fun _ => 0 }]
  | .consumer =>
      [{ request := .acquire 3, loads := fun index => if index = 0 then 0 else 3 },
        { request := .commit 3, loads := fun _ => 0 },
        { request := .acquire 2, loads := fun _ => 7 },
        { request := .commit 2, loads := fun _ => 0 }]

theorem slot_index_follows_iff_four :
    let history side := run (observe 4 side) {} (fourSlotCalls side)
    (∀ side, KeepsIndex 4 side (fourSlotCalls side)) ∧
      (history .producer).slots = [0, 1, 2, 3, 0, 1, 2] ∧
      (history .consumer).slots[4]? = (history .producer).slots[4]? := by
  obtain ⟨keeps, same⟩ := slot_index_follows_iff .send 4 64 4096 4096 (by decide) fourSlotCalls
  have steady : ∀ side, NeverCarries 4 side (fourSlotCalls side) :=
    fun side => neverCarries_of_le (by decide) (by decide) side _
  exact ⟨keeps.mpr steady, by decide,
    (same steady (by decide) 4 (by decide) (by decide)).2⟩

/-- An admitted ring of `2 ^ 31 + 1` slots whose producer publishes all slots from the last one
on: its next slot is the last one again, and the index says that it is slot 1. -/
theorem wide_ring_index_strays :
    machineMappingSize ⟨.send, 2147483649, 64⟩ 4096 = .ok 137438957568 ∧
      ¬KeepsIndex 2147483649 .producer
        (lapping 2147483649 ++ [{ request := .commit 2147483649, loads := fun _ => 0 }]) := by
  refine ⟨by decide, fun keeps => ?_⟩
  exact not_neverCarries_lapping (by decide) (by decide)
    ((keepsIndex_iff (by decide) (by decide) _).mp keeps)

end Ugdr.Queue
