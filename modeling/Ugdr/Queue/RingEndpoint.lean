import Ugdr.Queue.SharedRing
import Mathlib.Data.List.Basic

/-! # One ring endpoint

What a call computes when the endpoint's private copies are in step with true,
unbounded position counters. Producer and consumer are treated together: a side
may advance up to a limit that the other side's counter determines.
-/

namespace Ugdr.Queue

open Machine

/-- The position up to which a side may advance, given the peer's position. -/
def Side.limit (side : Side) (capacity peer : Nat) : Nat :=
  match side with
  | .producer => peer + capacity
  | .consumer => peer

/-- The slots of `count` consecutive positions. -/
def window (capacity position count : Nat) : List Nat :=
  (List.range count).map fun offset => (position + offset) % capacity

@[simp] theorem window_length (capacity position count : Nat) :
    (window capacity position count).length = count := by
  simp [window]

theorem mem_window {capacity position count slot : Nat} :
    slot ∈ window capacity position count ↔
      ∃ offset < count, slot = (position + offset) % capacity := by
  simp [window, eq_comm]

theorem window_take (capacity position count taken : Nat) :
    (window capacity position count).take taken =
      window capacity position (min taken count) := by
  rw [window, ← List.map_take, List.take_range]
  rfl

theorem add_mod_capacity {capacity position offset : Nat} (le : offset ≤ capacity)
    (positive : 0 < capacity) :
    (position + offset) % capacity =
      if position % capacity + offset < capacity then position % capacity + offset
      else position % capacity + offset - capacity := by
  have bound := Nat.mod_lt position positive
  have reduce : (position + offset) % capacity =
      (position % capacity + offset) % capacity := by
    simp [Nat.add_mod]
  rw [reduce]
  split
  · rename_i below
    exact Nat.mod_eq_of_lt below
  · rename_i above
    rw [Nat.mod_eq_sub_mod (by omega), Nat.mod_eq_of_lt (by omega)]

/-- Positions less than a capacity apart use different slots. -/
theorem mod_capacity_ne {capacity left right : Nat} (less : left < right)
    (near : right < left + capacity) : left % capacity ≠ right % capacity := by
  obtain ⟨offset, rfl⟩ := Nat.exists_eq_add_of_lt less
  have bound := Nat.mod_lt left (show 0 < capacity by omega)
  rw [Nat.add_assoc left, add_mod_capacity (by omega) (by omega)]
  split <;> omega

namespace Endpoint

/-- An initialised endpoint in step with its own counter `own`, whose cached
position is some earlier value of the peer's counter `peer`. -/
structure InStep (side : Side) (capacity own peer : Nat) (endpoint : Endpoint) :
    Prop where
  localPosition : endpoint.localPosition = own % 2 ^ 64
  localIndex : endpoint.localIndex = own % capacity
  cached : ∃ seen ≤ peer, endpoint.cachedPosition = seen % 2 ^ 64 ∧
    own + endpoint.held ≤ side.limit capacity seen ∧
    side.limit capacity seen ≤ own + capacity

section

variable {side : Side} {capacity own seen : Nat}

/-- The 64-bit difference of the wrapped counters is the true one. -/
theorem occupied_add_available (small : capacity ≤ 2 ^ 31)
    (reach : own ≤ side.limit capacity seen)
    (near : side.limit capacity seen ≤ own + capacity) :
    occupied side (own % 2 ^ 64) (seen % 2 ^ 64) ≤ capacity ∧
      available side capacity (occupied side (own % 2 ^ 64) (seen % 2 ^ 64)) =
        side.limit capacity seen - own := by
  cases side with
  | producer =>
      simp only [Side.limit] at reach near
      have difference : occupied .producer (own % 2 ^ 64) (seen % 2 ^ 64) = own - seen :=
        wrapSub_mod (by omega) (by omega)
      rw [difference]
      simp only [available, Side.limit]
      omega
  | consumer =>
      simp only [Side.limit] at reach near
      have difference : occupied .consumer (own % 2 ^ 64) (seen % 2 ^ 64) = seen - own :=
        wrapSub_mod (by omega) (by omega)
      rw [difference]
      exact ⟨by omega, rfl⟩

end

variable {side : Side} {capacity own peer : Nat} {endpoint : Endpoint}

/-- The slot index follows the position, provided that the 32-bit addition does not wrap. -/
theorem advanceIndex_of_lt {count : Nat} (positive : 0 < capacity)
    (le : count ≤ capacity) (fits : own % capacity + count < 2 ^ 32) :
    advanceIndex (own % capacity) capacity count = (own + count) % capacity := by
  rw [add_mod_capacity le positive, advanceIndex, wrapAdd_of_lt fits]
  split
  · rename_i above
    rw [wrapSub_of_le above (by omega), if_neg (by omega)]
  · rename_i below
    rw [if_pos (by omega)]

theorem advanceIndex_eq {count : Nat} (positive : 0 < capacity)
    (small : capacity ≤ 2 ^ 31) (le : count ≤ capacity) :
    advanceIndex (own % capacity) capacity count = (own + count) % capacity := by
  have bound := Nat.mod_lt own positive
  exact advanceIndex_of_lt positive le (by omega)

/-- The two spans of a batch cover consecutive positions. -/
theorem batch_slots_eq {count : Nat} (positive : 0 < capacity)
    (small : capacity < 2 ^ 32) (le : count ≤ capacity) :
    let firstCount := min count (wrapSub 32 capacity (own % capacity))
    (SlotBatch.mk ⟨own % capacity, firstCount⟩ ⟨0, count - firstCount⟩ count).slots =
      window capacity own count := by
  have bound := Nat.mod_lt own positive
  have room : wrapSub 32 capacity (own % capacity) = capacity - own % capacity :=
    wrapSub_of_le (by omega) small
  simp only [room, SlotBatch.slots, SlotSpan.slots]
  apply List.ext_getElem
  · simp only [List.length_append, List.length_range', window_length]
    omega
  · intro offset inLeft inRight
    rw [window_length] at inRight
    simp only [window, List.getElem_map, List.getElem_range]
    rw [add_mod_capacity (by omega) positive, List.getElem_append]
    simp only [List.length_range', List.getElem_range', Nat.one_mul, Nat.zero_add]
    by_cases within : offset < min count (capacity - own % capacity)
    · rw [dif_pos within, if_pos (by omega)]
    · rw [dif_neg within, if_neg (by omega)]
      omega

/-- A grant hands out the next positions and stays within the known limit. -/
theorem grant_spec (endpoint : Endpoint) (peer : Nat) {seen maxCount : Nat}
    (positive : 0 < capacity)
    (small : capacity ≤ 2 ^ 31) (requested : maxCount ≠ 0)
    (localPosition : endpoint.localPosition = own % 2 ^ 64)
    (localIndex : endpoint.localIndex = own % capacity)
    (known : seen ≤ peer) (cached : endpoint.cachedPosition = seen % 2 ^ 64)
    (reach : own ≤ side.limit capacity seen)
    (near : side.limit capacity seen ≤ own + capacity)
    (idle : endpoint.held = 0) :
    let result := endpoint.grant capacity maxCount (side.limit capacity seen - own)
    InStep side capacity own peer result.1 ∧ result.1.initialized = endpoint.initialized ∧
      ((∃ batch, result.2 = .ok batch ∧ result.1.held ≠ 0 ∧ result.1.held ≤ maxCount ∧
          batch.slots = window capacity own result.1.held) ∨
        (result.2 = .error .eagain ∧ result.1.held = 0 ∧
          side.limit capacity seen = own)) := by
  unfold grant
  by_cases none : side.limit capacity seen - own = 0
  · rw [if_pos none]
    refine ⟨⟨localPosition, localIndex, seen, known, cached, ?_, near⟩, rfl,
      .inr ⟨rfl, idle, by omega⟩⟩
    simp only [idle]
    omega
  · rw [if_neg none]
    refine ⟨⟨localPosition, localIndex, seen, known, cached, ?_, near⟩, rfl,
      .inl ⟨_, rfl, ?_, ?_, ?_⟩⟩
    · simp only
      omega
    · simp only
      omega
    · simp only
      omega
    · simp only [localIndex]
      exact batch_slots_eq positive (by omega) (by omega)

/-- The call with an in-step endpoint that holds nothing: it either hands out
the next positions at once or goes on to reload the peer's position. -/
theorem acquireInitialized_spec {maxCount : Nat} (positive : 0 < capacity)
    (small : capacity ≤ 2 ^ 31) (requested : maxCount ≠ 0)
    (inStep : InStep side capacity own peer endpoint) (idle : endpoint.held = 0) :
    (∃ result batch, acquireInitialized side endpoint capacity maxCount =
        .done (result, .ok batch) ∧ InStep side capacity own peer result ∧
        result.initialized = endpoint.initialized ∧
        result.held ≠ 0 ∧ batch.slots = window capacity own result.held) ∨
      acquireInitialized side endpoint capacity maxCount =
        .load side.peer fun position =>
          .done (refreshed side { endpoint with cachedPosition := position }
            capacity maxCount) := by
  obtain ⟨localPosition, localIndex, seen, known, cached, reach, near⟩ := inStep
  rw [idle, Nat.add_zero] at reach
  obtain ⟨within, room⟩ := occupied_add_available small reach near
  unfold acquireInitialized
  simp only [localPosition, cached]
  rw [if_neg (by omega), room]
  by_cases short : side.limit capacity seen - own < maxCount
  · rw [if_pos short]
    exact .inr rfl
  · rw [if_neg short]
    obtain ⟨inStep, sameFlag, outcome⟩ := grant_spec endpoint peer positive small
      requested localPosition localIndex known cached reach near idle
    rcases outcome with ⟨batch, ok, held, -, slots⟩ | ⟨-, -, full⟩
    · refine .inl ⟨_, batch, ?_, inStep, sameFlag, held, slots⟩
      rw [← ok]
    · omega

/-- The reload never finds the protocol violated, and reports `EAGAIN` only when
the peer's counter leaves no room. -/
theorem refreshed_spec {maxCount : Nat} (positive : 0 < capacity)
    (small : capacity ≤ 2 ^ 31) (requested : maxCount ≠ 0)
    (localPosition : endpoint.localPosition = own % 2 ^ 64)
    (localIndex : endpoint.localIndex = own % capacity)
    (reach : own ≤ side.limit capacity peer)
    (near : side.limit capacity peer ≤ own + capacity) (idle : endpoint.held = 0) :
    let result := refreshed side { endpoint with cachedPosition := peer % 2 ^ 64 }
      capacity maxCount
    InStep side capacity own peer result.1 ∧ result.1.initialized = endpoint.initialized ∧
      ((∃ batch, result.2 = .ok batch ∧ result.1.held ≠ 0 ∧
          batch.slots = window capacity own result.1.held) ∨
        (result.2 = .error .eagain ∧ result.1.held = 0 ∧
          side.limit capacity peer = own)) := by
  obtain ⟨within, room⟩ := occupied_add_available small reach near
  unfold refreshed
  simp only [localPosition]
  rw [if_neg (by omega), room]
  obtain ⟨inStep, sameFlag, outcome⟩ := grant_spec
    { endpoint with localPosition := own % 2 ^ 64, cachedPosition := peer % 2 ^ 64 } peer
    positive small requested rfl localIndex (Nat.le_refl peer) rfl reach near idle
  refine ⟨inStep, sameFlag, ?_⟩
  rcases outcome with ⟨batch, ok, held, -, slots⟩ | full
  · exact .inl ⟨batch, ok, held, slots⟩
  · exact .inr full

theorem advance_inStep {count : Nat} (positive : 0 < capacity)
    (small : capacity ≤ 2 ^ 31) (inStep : InStep side capacity own peer endpoint)
    (le : count ≤ endpoint.held) :
    InStep side capacity (own + count) peer (endpoint.advance capacity count) := by
  obtain ⟨localPosition, localIndex, seen, known, cached, reach, near⟩ := inStep
  refine ⟨?_, ?_, seen, known, cached, ?_, by omega⟩
  · rw [advance, localPosition, wrapAdd_mod]
  · rw [advance, localIndex, advanceIndex_eq positive small (by omega)]
  · simp only [advance]
    omega

theorem InStep.mono {later : Nat} (le : peer ≤ later)
    (inStep : InStep side capacity own peer endpoint) :
    InStep side capacity own later endpoint := by
  obtain ⟨localPosition, localIndex, seen, known, rest⟩ := inStep
  exact ⟨localPosition, localIndex, seen, Nat.le_trans known le, rest⟩

end Endpoint

end Ugdr.Queue
