import Ugdr.Gpu.DynamicSharded

/-! # A lane of the dynamic sharded queue

A lane is a ring between the host and one warp. What is known about a lane does not depend on
the other lanes.
-/

namespace Ugdr.Gpu.DynamicSharded

open Machine

/-- What belongs to one lane. -/
structure Lane where
  control : Control
  taskSlots : Nat → CopyTask
  completionSlots : Nat → CopyCompletion
  warp : Warp
  submitTail : Nat
  completionHead : Nat
  submitted : List CopyTask
  copied : List CopyTask
  polled : List CopyCompletion

namespace Warp

/-- The tasks below this index belong to batches that the warp has begun. -/
def begunTo (warp : Warp) : Nat :=
  match warp.phase with
  | .readTask taskCount _ | .copy taskCount _ _ | .writeCompletion taskCount _ _
  | .storeTail taskCount => warp.taskHead + taskCount
  | _ => warp.taskHead

def copiedTo (warp : Warp) : Nat :=
  match warp.phase with
  | .readTask _ batchIndex | .copy _ batchIndex _ => warp.taskHead + batchIndex
  | .writeCompletion _ batchIndex _ => warp.taskHead + batchIndex + 1
  | .storeTail taskCount => warp.taskHead + taskCount
  | _ => warp.taskHead

def writtenTo (warp : Warp) : Nat :=
  match warp.phase with
  | .readTask _ batchIndex | .copy _ batchIndex _ | .writeCompletion _ batchIndex _ =>
      warp.taskHead + batchIndex
  | .storeTail taskCount => warp.taskHead + taskCount
  | _ => warp.taskHead

end Warp

namespace Lane

variable {capacity : Nat} {lane : Lane}

def PhaseFits (lane : Lane) : Phase → Prop
  | .loadTail | .loadStop | .storeTail _ => True
  | .loadFinalTail => lane.control.stopRequested ≠ 0
  | .readTask taskCount batchIndex => batchIndex < taskCount
  | .copy taskCount batchIndex task | .writeCompletion taskCount batchIndex task =>
      batchIndex < taskCount ∧ lane.submitted[lane.warp.taskHead + batchIndex]? = some task
  | .stopped =>
      lane.control.stopRequested ≠ 0 ∧ lane.control.taskTail ≤ lane.warp.taskHead

/-- The slot of an index has the completion of its task. -/
def Shows (capacity : Nat) (lane : Lane) (index : Nat) : Prop :=
  ∀ task, lane.submitted[index]? = some task →
    lane.completionSlots (index % capacity) = completionOf task

structure Invariant (capacity : Nat) (lane : Lane) : Prop where
  bounded : lane.submitted.length < 2 ^ 64
  submitTail : lane.submitTail = lane.submitted.length
  completionHead : lane.completionHead = lane.polled.length
  room : lane.submitted.length ≤ lane.polled.length + capacity
  tail : lane.control.taskTail ≤ lane.submitted.length
  answered : lane.control.completionTail = lane.warp.taskHead
  polledBelow : lane.polled.length ≤ lane.warp.taskHead
  begun : lane.warp.begunTo ≤ lane.control.taskTail
  phase : lane.PhaseFits lane.warp.phase
  taskSlots : RingLog.Holds lane.taskSlots capacity lane.submitted
  completionSlots : ∀ index, lane.polled.length ≤ index → index < lane.warp.writtenTo →
    lane.Shows capacity index
  copied : lane.copied = lane.submitted.take lane.warp.copiedTo
  polled : lane.polled = (lane.submitted.take lane.polled.length).map completionOf

namespace Invariant

variable (invariant : lane.Invariant capacity)

include invariant

theorem bounds : lane.warp.taskHead ≤ lane.warp.writtenTo ∧
    lane.warp.writtenTo ≤ lane.warp.copiedTo ∧ lane.warp.copiedTo ≤ lane.warp.begunTo := by
  have phase := invariant.phase
  unfold Warp.writtenTo Warp.copiedTo Warp.begunTo
  cases next : lane.warp.phase with
  | readTask taskCount batchIndex =>
      rw [next] at phase
      unfold PhaseFits at phase
      dsimp only
      omega
  | copy taskCount batchIndex task =>
      rw [next] at phase
      unfold PhaseFits at phase
      dsimp only
      omega
  | writeCompletion taskCount batchIndex task =>
      rw [next] at phase
      unfold PhaseFits at phase
      dsimp only
      omega
  | storeTail taskCount =>
      dsimp only
      omega
  | _ =>
      dsimp only
      omega

/-- Only the slots of the lane itself matter. -/
theorem congr (positive : 0 < capacity) {taskSlots : Nat → CopyTask}
    {completionSlots : Nat → CopyCompletion}
    (tasks : ∀ place < capacity, taskSlots place = lane.taskSlots place)
    (completions : ∀ place < capacity, completionSlots place = lane.completionSlots place) :
    Invariant capacity { lane with taskSlots, completionSlots } :=
  { bounded := invariant.bounded
    submitTail := invariant.submitTail
    completionHead := invariant.completionHead
    room := invariant.room
    tail := invariant.tail
    answered := invariant.answered
    polledBelow := invariant.polledBelow
    begun := invariant.begun
    phase := invariant.phase
    taskSlots := invariant.taskSlots.congr tasks positive
    completionSlots := fun index inside below task found =>
      (completions _ (Nat.mod_lt index positive)).trans
        (invariant.completionSlots index inside below task found)
    copied := invariant.copied
    polled := invariant.polled }

/-! ## The host -/

theorem push (room : lane.submitted.length < lane.polled.length + capacity)
    (bounded : lane.submitted.length + 1 < 2 ^ 64) (task : CopyTask) :
    Invariant capacity { lane with
      taskSlots := Function.update lane.taskSlots (lane.submitTail % capacity) task
      submitTail := wrapAdd 64 lane.submitTail 1
      submitted := lane.submitted ++ [task] } := by
  obtain ⟨written, copies, begins⟩ := invariant.bounds
  have begun := invariant.begun
  have tail := invariant.tail
  have polledBelow := invariant.polledBelow
  have kept : ∀ index < lane.submitted.length,
      (lane.submitted ++ [task])[index]? = lane.submitted[index]? :=
    fun index below => List.getElem?_append_left below
  have phase : PhaseFits { lane with
      taskSlots := Function.update lane.taskSlots (lane.submitTail % capacity) task
      submitTail := wrapAdd 64 lane.submitTail 1
      submitted := lane.submitted ++ [task] } lane.warp.phase := by
    have before := invariant.phase
    cases next : lane.warp.phase with
    | copy taskCount batchIndex task =>
        rw [next] at before
        refine ⟨before.1, ?_⟩
        dsimp only
        rw [kept _ (List.getElem?_eq_some_iff.mp before.2).1]
        exact before.2
    | writeCompletion taskCount batchIndex task =>
        rw [next] at before
        refine ⟨before.1, ?_⟩
        dsimp only
        rw [kept _ (List.getElem?_eq_some_iff.mp before.2).1]
        exact before.2
    | _ =>
        rw [next] at before
        exact before
  have length : (lane.submitted ++ [task]).length = lane.submitted.length + 1 :=
    List.length_append
  refine ⟨length ▸ bounded, ?_, invariant.completionHead, ?_, ?_, invariant.answered,
    polledBelow, begun, phase, ?_, fun index inside below other found => ?_, ?_, ?_⟩
  · dsimp only
    rw [length, invariant.submitTail, wrapAdd_of_lt bounded]
  · dsimp only
    omega
  · dsimp only
    omega
  · dsimp only
    rw [invariant.submitTail]
    exact invariant.taskSlots.push task
  · dsimp only at below found
    rw [kept index (by omega)] at found
    exact invariant.completionSlots index inside below other found
  · dsimp only
    rw [List.take_append_of_le_length (by omega)]
    exact invariant.copied
  · dsimp only
    rw [List.take_append_of_le_length (by omega)]
    exact invariant.polled

/-- The host publishes the tasks of the lane. -/
theorem publish (running : lane.control.stopRequested = 0) :
    Invariant capacity { lane with
      control := { lane.control with taskTail := lane.submitTail } } := by
  have begun := invariant.begun
  have tail := invariant.tail
  have submitTail := invariant.submitTail
  have before := invariant.phase
  have phase : PhaseFits { lane with
      control := { lane.control with taskTail := lane.submitTail } } lane.warp.phase := by
    cases next : lane.warp.phase with
    | stopped =>
        rw [next] at before
        exact absurd running before.1
    | _ =>
        rw [next] at before
        exact before
  exact
    { bounded := invariant.bounded
      submitTail := submitTail
      completionHead := invariant.completionHead
      room := invariant.room
      tail := submitTail.le
      answered := invariant.answered
      polledBelow := invariant.polledBelow
      begun := begun.trans (tail.trans submitTail.ge)
      phase := phase
      taskSlots := invariant.taskSlots
      completionSlots := invariant.completionSlots
      copied := invariant.copied
      polled := invariant.polled }

theorem requestStop :
    Invariant capacity { lane with control := { lane.control with stopRequested := 1 } } := by
  have before := invariant.phase
  have phase : PhaseFits { lane with control := { lane.control with stopRequested := 1 } }
      lane.warp.phase := by
    cases next : lane.warp.phase with
    | loadFinalTail => exact Nat.one_ne_zero
    | stopped =>
        rw [next] at before
        exact ⟨Nat.one_ne_zero, before.2⟩
    | _ =>
        rw [next] at before
        exact before
  exact
    { bounded := invariant.bounded
      submitTail := invariant.submitTail
      completionHead := invariant.completionHead
      room := invariant.room
      tail := invariant.tail
      answered := invariant.answered
      polledBelow := invariant.polledBelow
      begun := invariant.begun
      phase := phase
      taskSlots := invariant.taskSlots
      completionSlots := invariant.completionSlots
      copied := invariant.copied
      polled := invariant.polled }

/-- The host polls the next completion of the lane. -/
theorem pop (waiting : lane.completionHead < lane.control.completionTail) :
    Invariant capacity { lane with
      polled := lane.polled ++ [lane.completionSlots (lane.completionHead % capacity)]
      completionHead := wrapAdd 64 lane.completionHead 1 } := by
  obtain ⟨written, copies, begins⟩ := invariant.bounds
  have begun := invariant.begun
  have tail := invariant.tail
  have room := invariant.room
  have bounded := invariant.bounded
  have answered := invariant.answered
  have head := invariant.completionHead
  have below : lane.polled.length < lane.submitted.length := by omega
  have found := List.getElem?_eq_getElem below
  have shown := invariant.completionSlots _ (Nat.le_refl _) (by omega) _ found
  have length : (lane.polled ++ [lane.completionSlots (lane.completionHead % capacity)]).length =
      lane.polled.length + 1 :=
    List.length_append
  refine ⟨bounded, invariant.submitTail, ?_, ?_, tail, answered, ?_, begun, invariant.phase,
    invariant.taskSlots, fun index inside => ?_, invariant.copied, ?_⟩
  · dsimp only
    rw [length, head, wrapAdd_of_lt (by omega)]
  · dsimp only
    omega
  · dsimp only
    omega
  · dsimp only at inside
    exact invariant.completionSlots index (by omega)
  · dsimp only
    rw [length, List.take_add_one, found, Option.toList_some, List.map_append, List.map_singleton,
      head, shown, ← invariant.polled]

/-! ## The warp -/

/-- The warp is in another phase, but as far as before. -/
theorem move {phase : Phase}
    (copied : Warp.copiedTo { lane.warp with phase } = lane.warp.copiedTo)
    (written : Warp.writtenTo { lane.warp with phase } = lane.warp.writtenTo)
    (begun : Warp.begunTo { lane.warp with phase } ≤ lane.control.taskTail)
    (fits : lane.PhaseFits phase) :
    Invariant capacity { lane with warp := { lane.warp with phase } } :=
  { bounded := invariant.bounded
    submitTail := invariant.submitTail
    completionHead := invariant.completionHead
    room := invariant.room
    tail := invariant.tail
    answered := invariant.answered
    polledBelow := invariant.polledBelow
    begun := begun
    phase := fits
    taskSlots := invariant.taskSlots
    completionSlots := fun index inside below =>
      invariant.completionSlots index inside (written ▸ below)
    copied := copied ▸ invariant.copied
    polled := invariant.polled }

/-- The task in the slot of an index that the warp reads. -/
theorem read {index : Nat} (unanswered : lane.warp.taskHead ≤ index)
    (below : index < lane.control.taskTail) :
    lane.submitted[index]? = some (lane.taskSlots (index % capacity)) := by
  have tail := invariant.tail
  have room := invariant.room
  have polledBelow := invariant.polledBelow
  have inside : index < lane.submitted.length := by omega
  have found := List.getElem?_eq_getElem inside
  rw [found, invariant.taskSlots index _ found (by omega)]

theorem copyTask {taskCount batchIndex : Nat} {task : CopyTask}
    (here : lane.warp.phase = .copy taskCount batchIndex task) :
    Invariant capacity { lane with
      copied := lane.copied ++ [task]
      warp := { lane.warp with phase := .writeCompletion taskCount batchIndex task } } := by
  have fits := invariant.phase
  have begun := invariant.begun
  have written := invariant.completionSlots
  have copied := invariant.copied
  unfold Warp.copiedTo at copied
  unfold Warp.begunTo at begun
  unfold Warp.writtenTo at written
  rw [here] at fits begun written copied
  refine ⟨invariant.bounded, invariant.submitTail, invariant.completionHead, invariant.room,
    invariant.tail, invariant.answered, invariant.polledBelow, begun, fits, invariant.taskSlots,
    written, ?_, invariant.polled⟩
  unfold Warp.copiedTo
  dsimp only at copied ⊢
  rw [List.take_add_one, fits.2, Option.toList_some, ← copied]

theorem writeCompletion {taskCount batchIndex : Nat} {task : CopyTask}
    (here : lane.warp.phase = .writeCompletion taskCount batchIndex task) :
    Invariant capacity { lane with
      completionSlots := Function.update lane.completionSlots
        ((lane.warp.taskHead + batchIndex) % capacity) (completionOf task)
      warp :=
        { lane.warp with
          phase :=
            if batchIndex + 1 < taskCount then
              .readTask taskCount (batchIndex + 1)
            else
              .storeTail taskCount } } := by
  have fits := invariant.phase
  have begun := invariant.begun
  have written := invariant.completionSlots
  have copied := invariant.copied
  have tail := invariant.tail
  have room := invariant.room
  have polledBelow := invariant.polledBelow
  unfold Warp.copiedTo at copied
  unfold Warp.begunTo at begun
  unfold Warp.writtenTo at written
  rw [here] at fits begun written copied
  obtain ⟨inside, found⟩ := fits
  dsimp only at begun written copied
  have below := (List.getElem?_eq_some_iff.mp found).1
  have shows_ : ∀ index, lane.polled.length ≤ index →
      index < lane.warp.taskHead + batchIndex + 1 → ∀ other, lane.submitted[index]? = some other →
        Function.update lane.completionSlots ((lane.warp.taskHead + batchIndex) % capacity)
          (completionOf task) (index % capacity) = completionOf other := by
    intro index after before other member
    by_cases same : index = lane.warp.taskHead + batchIndex
    · rw [same] at member ⊢
      rw [found] at member
      rw [Function.update_self, Option.some_inj.mp member]
    · rw [Function.update_of_ne]
      · exact written index after (by omega) other member
      · intro slots
        exact same (RingLog.eq_of_mod_eq (by omega) (by omega) slots)
  split_ifs with more
  · exact ⟨invariant.bounded, invariant.submitTail, invariant.completionHead, room, tail,
      invariant.answered, polledBelow, begun, more, invariant.taskSlots, shows_, copied,
      invariant.polled⟩
  · have last : taskCount = batchIndex + 1 := by omega
    rw [last]
    exact ⟨invariant.bounded, invariant.submitTail, invariant.completionHead, room, tail,
      invariant.answered, polledBelow, last ▸ begun, trivial, invariant.taskSlots, shows_, copied,
      invariant.polled⟩

/-- The warp publishes the completions of its batch. -/
theorem storeTail {taskCount : Nat} (here : lane.warp.phase = .storeTail taskCount) :
    Invariant capacity { lane with
      control := { lane.control with completionTail := lane.warp.taskHead + taskCount }
      warp := { taskHead := lane.warp.taskHead + taskCount } } := by
  have begun := invariant.begun
  have written := invariant.completionSlots
  have copied := invariant.copied
  unfold Warp.copiedTo at copied
  unfold Warp.begunTo at begun
  unfold Warp.writtenTo at written
  rw [here] at begun written copied
  exact ⟨invariant.bounded, invariant.submitTail, invariant.completionHead, invariant.room,
    invariant.tail, rfl, invariant.polledBelow.trans (Nat.le_add_right ..), begun, trivial,
    invariant.taskSlots, written, copied, invariant.polled⟩

end Invariant

end Lane

end Ugdr.Gpu.DynamicSharded
