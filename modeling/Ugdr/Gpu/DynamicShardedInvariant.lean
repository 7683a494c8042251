import Mathlib.Algebra.Order.BigOperators.Group.Finset
import Ugdr.Gpu.ShardedLane

/-! # What the host of the dynamic sharded queue knows

The host keeps the counters of all lanes, and a cursor over the lanes. While it is within its
capacity, some lane has room.
-/

namespace Ugdr.Gpu.DynamicSharded

open Machine LaneLogs

/-! ## Sizes -/

namespace Shape

variable (shape : Shape)

theorem sizes : isSupportedCopyWarps shape.laneCount = true ∧
    shape.laneCount * shape.laneCapacity = shape.capacity ∧
      isPowerOfTwo shape.laneCapacity = true := by
  have allocates := shape.allocates
  unfold dynamicShardedSpscAllocationSize at allocates
  dsimp only at allocates
  split_ifs at allocates with refused
  · cases allocates
  · cases allocates
  · rw [not_or, not_or, not_or, not_or, Bool.not_eq_false, Bool.not_eq_false, not_not,
      Bool.not_eq_false] at refused
    obtain ⟨supported, -, -, whole, power⟩ := refused
    exact ⟨supported, Nat.mul_div_cancel' (Nat.dvd_of_mod_eq_zero whole), power⟩

theorem lanes_pos : 0 < shape.laneCount := by
  rcases isSupportedCopyWarps_cases shape.sizes.1 with lanes | lanes | lanes | lanes <;> omega

theorem lanes_le : shape.laneCount ≤ 32 := by
  rcases isSupportedCopyWarps_cases shape.sizes.1 with lanes | lanes | lanes | lanes <;> omega

theorem laneCapacity_pos : 0 < shape.laneCapacity :=
  isPowerOfTwo_pos shape.sizes.2.2

end Shape

/-! ## Dirty lanes -/

theorem dirty_iff (dirtyLanes lane : Nat) :
    dirtyLanes &&& (1 <<< lane) ≠ 0 ↔ dirtyLanes.testBit lane = true := by
  rw [Nat.one_shiftLeft]
  constructor
  · intro some_
    by_contra clean
    apply some_
    apply Nat.eq_of_testBit_eq
    intro bit
    rw [Nat.testBit_and, Nat.testBit_two_pow, Nat.zero_testBit]
    by_cases same : lane = bit
    · rw [← same, Bool.eq_false_of_not_eq_true clean, Bool.false_and]
    · rw [decide_eq_false same, Bool.and_false]
  · intro dirty none
    have bit := congrArg (Nat.testBit · lane) none
    rw [Nat.testBit_and, dirty, Nat.testBit_two_pow_self, Nat.zero_testBit] at bit
    exact absurd bit (by decide)

theorem testBit_mark (dirtyLanes lane other : Nat) :
    (dirtyLanes ||| (1 <<< lane)).testBit other = true ↔
      dirtyLanes.testBit other = true ∨ lane = other := by
  rw [Nat.testBit_or, Nat.one_shiftLeft, Nat.testBit_two_pow, Bool.or_eq_true, decide_eq_true_eq]

namespace System

variable {shape : Shape} {system : System shape}

/-! ## Lanes -/

def lane (system : System shape) (lane : Nat) : Lane where
  control := system.controls lane
  taskSlots := fun place => system.taskSlots (lane * shape.laneCapacity + place)
  completionSlots := fun place => system.completionSlots (lane * shape.laneCapacity + place)
  warp := system.warps lane
  submitTail := system.submitTails lane
  completionHead := system.completionHeads lane
  submitted := ofLane lane system.submitted
  copied := ofLane lane system.copied
  polled := ofLane lane system.polled

theorem slotIndex_eq (lane index : Nat) :
    slotIndex shape lane index = lane * shape.laneCapacity + index % shape.laneCapacity := by
  unfold slotIndex
  rw [and_mask shape.sizes.2.2]

/-- The slots of different lanes are different. -/
theorem slot_ne {left right index place : Nat} (different : left ≠ right)
    (inside : place < shape.laneCapacity) :
    left * shape.laneCapacity + place ≠ slotIndex shape right index := by
  intro same
  rw [slotIndex_eq] at same
  have places := Nat.mod_lt index shape.laneCapacity_pos
  apply different
  have lefts : (left * shape.laneCapacity + place) / shape.laneCapacity = left := by
    rw [Nat.mul_comm, Nat.mul_add_div shape.laneCapacity_pos, Nat.div_eq_of_lt inside, Nat.add_zero]
  have rights : (right * shape.laneCapacity + index % shape.laneCapacity) /
      shape.laneCapacity = right := by
    rw [Nat.mul_comm, Nat.mul_add_div shape.laneCapacity_pos, Nat.div_eq_of_lt places, Nat.add_zero]
  rw [← lefts, same, rights]

/-! ## The invariant -/

def Inside {α : Type} (shape : Shape) (log : List (Nat × α)) : Prop :=
  ∀ entry ∈ log, entry.1 < shape.laneCount

/-- The tail of a lane shows all of its tasks. -/
def Published (system : System shape) (lane : Nat) : Prop :=
  (system.controls lane).taskTail = (ofLane lane system.submitted).length

/-- No call is between its first task and its last store. -/
def Settled (system : System shape) : Prop :=
  system.acceptedTasks = system.submitted.length ∧
    ∀ lane < shape.laneCount, system.Published lane

def HostFits (system : System shape) : Host → Prop
  | .idle => system.Settled
  | .writeTask tasks index dirtyLanes =>
      system.accepting = true ∧ index < tasks.length ∧
        system.submitted.length = system.acceptedTasks + index ∧
        system.acceptedTasks + tasks.length ≤ system.polled.length + shape.capacity ∧
        ∀ lane < shape.laneCount, dirtyLanes.testBit lane = false → system.Published lane
  | .storeTail count dirtyLanes lane =>
      system.accepting = true ∧ lane < shape.laneCount ∧
        system.submitted.length = system.acceptedTasks + count ∧
        ∀ other < shape.laneCount,
          other < lane ∨ dirtyLanes.testBit other = false → system.Published other
  | .loadTail _ selectedLane => system.Settled ∧ selectedLane < shape.laneCount
  | .readCompletion selectedLane =>
      system.Settled ∧ selectedLane < shape.laneCount ∧
        system.completionHeads selectedLane < (system.controls selectedLane).completionTail
  | .storeStop lane => system.Settled ∧ system.accepting = false ∧ lane < shape.laneCount

structure Invariant (system : System shape) : Prop where
  bounded : system.submitted.length < 2 ^ 64
  lanes : ∀ lane < shape.laneCount, (system.lane lane).Invariant shape.laneCapacity
  submitted : Inside shape system.submitted
  copied : Inside shape system.copied
  polled : Inside shape system.polled
  submitCursor : system.submitCursor < shape.laneCount
  completionCursor : system.completionCursor < shape.laneCount
  room : system.submitted.length ≤ system.polled.length + shape.capacity
  completed : system.completedTasks = system.polled.length
  host : system.HostFits system.host
  stopping : ∀ lane < shape.laneCount,
    (system.controls lane).stopRequested ≠ 0 → system.accepting = false
  neverFails : system.status ≠ some .eio

theorem initial_invariant : Invariant ({} : System shape) where
  bounded := Nat.two_pow_pos 64
  lanes := fun lane _ =>
    { bounded := Nat.two_pow_pos 64
      submitTail := rfl
      completionHead := rfl
      room := Nat.zero_le _
      tail := Nat.le_refl 0
      answered := rfl
      polledBelow := Nat.le_refl 0
      begun := Nat.le_refl 0
      phase := trivial
      taskSlots := RingLog.holds_nil _
      completionSlots := fun index _ below => absurd below (Nat.not_lt_zero index)
      copied := rfl
      polled := rfl }
  submitted := List.forall_mem_nil _
  copied := List.forall_mem_nil _
  polled := List.forall_mem_nil _
  submitCursor := shape.lanes_pos
  completionCursor := shape.lanes_pos
  room := Nat.zero_le _
  completed := rfl
  host := ⟨rfl, fun _ _ => rfl⟩
  stopping := fun _ _ stopped => absurd rfl stopped
  neverFails := by rintro ⟨⟩

/-! ## Choosing a lane -/

theorem nextLane_lt {lane : Nat} (inside : lane < shape.laneCount) :
    nextLane shape lane < shape.laneCount := by
  have lanes := shape.lanes_le
  unfold nextLane
  rw [wrapAdd_of_lt (by omega)]
  dsimp only
  split_ifs <;> omega

theorem nextLane_eq {lane : Nat} (inside : lane < shape.laneCount) :
    nextLane shape lane = (lane + 1) % shape.laneCount := by
  have lanes := shape.lanes_le
  unfold nextLane
  rw [wrapAdd_of_lt (by omega)]
  dsimp only
  split_ifs with last
  · rw [last, Nat.mod_self]
  · rw [Nat.mod_eq_of_lt (by omega)]

/-- The lane that is chosen has room. -/
theorem selectLane_some {visits selectedLane lane : Nat} (inside : selectedLane < shape.laneCount)
    (selected : system.selectLane visits selectedLane = some lane) :
    lane < shape.laneCount ∧
      wrapSub 64 (system.submitTails lane) (system.completionHeads lane) < shape.laneCapacity := by
  induction visits generalizing selectedLane with
  | zero => cases selected
  | succ visits induction =>
      unfold selectLane at selected
      dsimp only at selected
      split_ifs at selected with room
      · obtain rfl := Option.some_inj.mp selected
        exact ⟨inside, room⟩
      · exact induction (nextLane_lt inside) selected

/-- When no lane is chosen, all lanes that were visited are full. -/
theorem selectLane_none {visits selectedLane : Nat} (inside : selectedLane < shape.laneCount)
    (none_ : system.selectLane visits selectedLane = none) {step : Nat} (visited : step < visits) :
    shape.laneCapacity ≤
      wrapSub 64 (system.submitTails ((selectedLane + step) % shape.laneCount))
        (system.completionHeads ((selectedLane + step) % shape.laneCount)) := by
  induction visits generalizing selectedLane step with
  | zero => exact absurd visited (Nat.not_lt_zero step)
  | succ visits induction =>
      unfold selectLane at none_
      dsimp only at none_
      split_ifs at none_ with room
      cases step with
      | zero =>
          rw [Nat.add_zero, Nat.mod_eq_of_lt inside]
          exact Nat.not_lt.mp room
      | succ step =>
          have later := induction (nextLane_lt inside) none_ (Nat.lt_of_succ_lt_succ visited)
          rw [nextLane_eq inside, Nat.mod_add_mod, Nat.add_right_comm] at later
          exact later

/-- Every lane is visited from every cursor. -/
theorem exists_visit {cursor lane : Nat} (inside : lane < shape.laneCount)
    (cursorInside : cursor < shape.laneCount) :
    ∃ step < shape.laneCount, (cursor + step) % shape.laneCount = lane := by
  refine ⟨(lane + shape.laneCount - cursor) % shape.laneCount, Nat.mod_lt _ shape.lanes_pos, ?_⟩
  have whole : cursor + (lane + shape.laneCount - cursor) = lane + shape.laneCount := by omega
  rw [Nat.add_mod_mod, whole, Nat.add_mod_right, Nat.mod_eq_of_lt inside]

/-- A queue that is not full has a lane with room. -/
theorem Invariant.exists_lane (invariant : system.Invariant)
    (room : system.submitted.length < system.polled.length + shape.capacity) :
    ∃ lane, system.selectLane shape.laneCount system.submitCursor = some lane := by
  by_contra missing
  rw [← Option.isSome_iff_exists, Bool.not_eq_true, Option.isSome_eq_false_iff,
    Option.isNone_iff_eq_none] at missing
  have full : ∀ lane ∈ Finset.range shape.laneCount,
      (ofLane lane system.polled).length + shape.laneCapacity ≤
        (ofLane lane system.submitted).length := by
    intro lane member
    have inside := Finset.mem_range.mp member
    have fits := invariant.lanes lane inside
    have polledBelow := fits.polledBelow
    obtain ⟨written, copies, begins⟩ := fits.bounds
    have begun := fits.begun
    have tail := fits.tail
    have bounded := fits.bounded
    have submitTail : system.submitTails lane = (ofLane lane system.submitted).length :=
      fits.submitTail
    have head : system.completionHeads lane = (ofLane lane system.polled).length :=
      fits.completionHead
    obtain ⟨step, visited, rfl⟩ := exists_visit inside invariant.submitCursor
    have lanes := selectLane_none invariant.submitCursor missing visited
    unfold System.lane at polledBelow tail begun bounded begins copies written
    dsimp only at polledBelow tail begun bounded begins copies written
    rw [submitTail, head, wrapSub_of_le (by omega) bounded] at lanes
    omega
  have total := Finset.sum_le_sum full
  rw [Finset.sum_add_distrib, sum_length_ofLane invariant.polled,
    sum_length_ofLane invariant.submitted, Finset.sum_const_nat fun _ _ => rfl,
    Finset.card_range, shape.sizes.2.1] at total
  omega

end System

end Ugdr.Gpu.DynamicSharded
