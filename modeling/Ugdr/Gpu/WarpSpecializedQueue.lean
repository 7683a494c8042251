import Ugdr.Foundation.Execution
import Ugdr.Foundation.Machine
import Ugdr.Gpu.DeviceQueues

/-! # The warp-specialised queue

`WarpSpecializedQueue` on the host, and what both of its kernels do with the memory they share
with it. Every access to that memory is a step of its own.
-/

namespace Ugdr.Gpu.WarpSpecialized

open Machine

structure Control where
  taskTail : Nat := 0
  completionTail : Nat := 0
  stopRequested : Nat := 0
  deriving DecidableEq, Repr

/-- What the host does next. -/
inductive Host
  | idle
  | writeTask (tasks : List CopyTask) (index : Nat)
  | storeTail (count : Nat)
  | loadTail
  | readCompletion
  | storeStop
  deriving DecidableEq, Repr

/-- The memory that host and device share, and the private fields of the host. -/
structure Queue where
  control : Control := {}
  taskSlots : Nat → CopyTask := fun _ => ⟨0, 0, 0, 0⟩
  completionSlots : Nat → CopyCompletion := fun _ => ⟨0, .success⟩
  host : Host := .idle
  submitTail : Nat := 0
  completionHead : Nat := 0
  cachedCompletionTail : Nat := 0
  accepting : Bool := true
  /-- What the last call returned. -/
  status : Status := none
  submittedCount : Nat := 0
  /-- The tasks that were written to the slots. -/
  submitted : List CopyTask := []
  /-- The completions that `try_poll` has returned. -/
  polled : List CopyCompletion := []

namespace Queue

/-- `index & capacity_mask_`. -/
def slot (capacity index : Nat) : Nat :=
  index &&& (capacity - 1)

/-! ## The host -/

inductive Call
  | trySubmitBatch (tasks : List CopyTask)
  | tryPoll
  | requestStop

/-- `try_submit_batch` up to its first access to the slots. -/
def trySubmitBatch (capacity : Nat) (queue : Queue) (tasks : List CopyTask) : Queue :=
  let queue := { queue with submittedCount := 0 }
  if queue.accepting = false ∨ tasks = [] then
    { queue with status := some .einval }
  else
    let outstanding := wrapSub 64 queue.submitTail queue.completionHead
    if capacity ≤ outstanding then
      { queue with status := some .eagain }
    else
      let available := capacity - outstanding
      let count := if tasks.length < available then tasks.length else available
      if (tasks.take count).any fun task => task.targetAddress = 0 ∨ task.length = 0 then
        { queue with status := some .einval }
      else
        { queue with host := .writeTask (tasks.take count) 0 }

/-- The queue is running, and the host makes one call at a time. -/
def call (capacity : Nat) (queue : Queue) (call : Call) : Queue :=
  if queue.host ≠ .idle then
    queue
  else
    match call with
    | .trySubmitBatch tasks => queue.trySubmitBatch capacity tasks
    | .tryPoll =>
        if queue.cachedCompletionTail ≤ queue.completionHead then
          { queue with host := .loadTail }
        else
          { queue with host := .readCompletion }
    | .requestStop =>
        if queue.accepting = false then
          { queue with status := some .einval }
        else
          { queue with accepting := false, host := .storeStop }

/-- The next access that the host makes. -/
def hostStep (capacity : Nat) (queue : Queue) : Queue :=
  match queue.host with
  | .idle => queue
  | .writeTask tasks index =>
      match tasks[index]? with
      | none => queue
      | some task =>
          let queue :=
            { queue with
              taskSlots := Function.update queue.taskSlots
                (slot capacity (wrapAdd 64 queue.submitTail index)) task
              submitted := queue.submitted ++ [task] }
          if index + 1 < tasks.length then
            { queue with host := .writeTask tasks (index + 1) }
          else
            { queue with
              host := .storeTail tasks.length
              submitTail := wrapAdd 64 queue.submitTail tasks.length }
  | .storeTail count =>
      { queue with
        control := { queue.control with taskTail := queue.submitTail }
        submittedCount := count
        status := none
        host := .idle }
  | .loadTail =>
      let cachedCompletionTail := queue.control.completionTail
      if cachedCompletionTail ≤ queue.completionHead then
        { queue with cachedCompletionTail, status := some .eagain, host := .idle }
      else
        { queue with cachedCompletionTail, host := .readCompletion }
  | .readCompletion =>
      { queue with
        polled := queue.polled ++ [queue.completionSlots (slot capacity queue.completionHead)]
        completionHead := wrapAdd 64 queue.completionHead 1
        status := none
        host := .idle }
  | .storeStop =>
      { queue with
        control := { queue.control with stopRequested := 1 }
        status := none
        host := .idle }

/-! ## The device -/

/-- How a warp looks for a batch. -/
inductive Fetch
  | loadTail
  | loadStop
  | loadFinalTail
  deriving DecidableEq, Repr

inductive Fetched
  | again (next : Fetch)
  | batch (count : Nat)
  | stop
  deriving DecidableEq, Repr

/-- The next access of a warp that looks for a batch behind `head`. -/
def fetch (queue : Queue) (head : Nat) : Fetch → Fetched
  | .loadTail =>
      let taskTail := queue.control.taskTail
      if head < taskTail then
        let available := wrapSub 64 taskTail head
        .batch (if available < warpSpecializedMetaBatch then available
          else warpSpecializedMetaBatch)
      else
        .again .loadStop
  | .loadStop => .again (if queue.control.stopRequested ≠ 0 then .loadFinalTail else .loadTail)
  | .loadFinalTail => if queue.control.taskTail ≤ head then .stop else .again .loadTail

def writeCompletion (capacity : Nat) (queue : Queue) (index : Nat)
    (completion : CopyCompletion) : Queue :=
  { queue with
    completionSlots := Function.update queue.completionSlots (slot capacity index) completion }

def storeCompletionTail (queue : Queue) (completionTail : Nat) : Queue :=
  { queue with control := { queue.control with completionTail } }

/-! ## What host and device know -/

/-- The counters that the host keeps agree with what it is doing. -/
def HostFits (capacity : Nat) (queue : Queue) : Prop :=
  match queue.host with
  | .idle | .loadTail =>
      queue.submitTail = queue.submitted.length ∧
        queue.control.taskTail = queue.submitted.length
  | .writeTask tasks index =>
      queue.accepting = true ∧ index < tasks.length ∧
        queue.submitted.length = queue.submitTail + index ∧
        queue.submitTail + tasks.length ≤ queue.completionHead + capacity ∧
        queue.control.taskTail = queue.submitTail ∧
        ∀ task ∈ tasks, task.length ≠ 0
  | .storeTail _ =>
      queue.accepting = true ∧ queue.submitTail = queue.submitted.length ∧
        queue.control.taskTail ≤ queue.submitted.length
  | .readCompletion =>
      queue.submitTail = queue.submitted.length ∧
        queue.control.taskTail = queue.submitted.length ∧
        queue.completionHead < queue.cachedCompletionTail
  | .storeStop =>
      queue.accepting = false ∧ queue.submitTail = queue.submitted.length ∧
        queue.control.taskTail = queue.submitted.length

/-- The task of an index; behind the last one, the task that stops a copy warp. -/
def taskAt (queue : Queue) (index : Nat) : CopyTask :=
  (queue.submitted[index]?).getD ⟨0, 0, 0, 0⟩

theorem taskAt_of_submitted {queue : Queue} {index : Nat} {task : CopyTask}
    (found : queue.submitted[index]? = some task) : queue.taskAt index = task := by
  rw [taskAt, found, Option.getD_some]

/-- The slot of an index has the completion of its task. -/
def Shows (capacity : Nat) (queue : Queue) (index : Nat) : Prop :=
  ∀ task, queue.submitted[index]? = some task →
    queue.completionSlots (index % capacity) = completionOf task

structure Invariant (capacity : Nat) (queue : Queue) : Prop where
  /-- The indices of a batch behind the last task do not wrap. -/
  bounded : queue.submitted.length + warpSpecializedMetaBatch ≤ 2 ^ 64
  host : queue.HostFits capacity
  stopping : queue.control.stopRequested ≠ 0 → queue.accepting = false
  room : queue.submitted.length ≤ queue.completionHead + capacity
  polledBelow : queue.completionHead ≤ queue.control.completionTail
  cachedBelow : queue.cachedCompletionTail ≤ queue.control.completionTail
  answeredBelow : queue.control.completionTail ≤ queue.control.taskTail
  valid : ∀ task ∈ queue.submitted, task.length ≠ 0
  taskSlots : RingLog.Holds queue.taskSlots capacity queue.submitted
  completionSlots : ∀ index, queue.completionHead ≤ index →
    index < queue.control.completionTail → queue.Shows capacity index
  polled : queue.polled = (queue.submitted.take queue.completionHead).map completionOf

theorem initial_invariant (capacity : Nat) : Invariant capacity {} where
  bounded := by decide
  host := ⟨rfl, rfl⟩
  stopping := fun stopped => absurd rfl stopped
  room := Nat.zero_le _
  polledBelow := Nat.le_refl 0
  cachedBelow := Nat.le_refl 0
  answeredBelow := Nat.le_refl 0
  valid := List.forall_mem_nil _
  taskSlots := RingLog.holds_nil _
  completionSlots := fun index _ below => absurd below (Nat.not_lt_zero index)
  polled := rfl

/-! ## Steps of the host -/

variable {capacity : Nat} {queue : Queue}

namespace Invariant

variable (invariant : queue.Invariant capacity)

include invariant

theorem tail_le : queue.control.taskTail ≤ queue.submitted.length := by
  have host := invariant.host
  unfold HostFits at host
  split at host <;> omega

/-- Up to the tail there is a task for every index. -/
theorem submitted_of_lt {index : Nat} (below : index < queue.control.taskTail) :
    queue.submitted[index]? = some (queue.taskAt index) := by
  have tail := invariant.tail_le
  rw [taskAt, List.getElem?_eq_getElem (by omega), Option.getD_some]

/-- A slot shows its completion for as long as it is not written again. -/
theorem shows_of_lt {later : Queue} {index : Nat}
    (submitted : ∀ (index : Nat) task, queue.submitted[index]? = some task →
      later.submitted[index]? = some task)
    (slots : later.completionSlots = queue.completionSlots)
    (below : index < queue.control.taskTail) (shown : queue.Shows capacity index) :
    later.Shows capacity index := by
  intro task found
  have before := invariant.submitted_of_lt below
  have same := submitted _ _ before
  rw [found] at same
  rw [slots]
  rw [← Option.some_inj.mp same] at before
  exact shown task before

theorem idle (idle : queue.host = .idle) : queue.submitTail = queue.submitted.length ∧
    queue.control.taskTail = queue.submitted.length := by
  have host := invariant.host
  unfold HostFits at host
  rw [idle] at host
  exact host

/-- After a request to stop no more tasks are written. -/
theorem tail_of_stopped (stop : queue.control.stopRequested ≠ 0) :
    queue.control.taskTail = queue.submitted.length := by
  have host := invariant.host
  have accepting := invariant.stopping stop
  unfold HostFits at host
  rw [accepting] at host
  split at host
  · exact host.2
  · exact host.2
  · exact absurd host.1 Bool.false_ne_true
  · exact absurd host.1 Bool.false_ne_true
  · exact host.2.1
  · exact host.2.2

/-- The host changes nothing but its own fields. -/
theorem withHost {host : Host} {accepting : Bool} {status : Status}
    {submittedCount cachedCompletionTail : Nat}
    (fits : HostFits capacity { queue with
      host, accepting, status, submittedCount, cachedCompletionTail })
    (cached : cachedCompletionTail ≤ queue.control.completionTail)
    (stopping : queue.control.stopRequested ≠ 0 → accepting = false) :
    Invariant capacity { queue with
      host, accepting, status, submittedCount, cachedCompletionTail } :=
  { bounded := invariant.bounded
    host := fits
    stopping := stopping
    room := invariant.room
    polledBelow := invariant.polledBelow
    cachedBelow := cached
    answeredBelow := invariant.answeredBelow
    valid := invariant.valid
    taskSlots := invariant.taskSlots
    completionSlots := invariant.completionSlots
    polled := invariant.polled }

theorem trySubmitBatch (idle : queue.host = .idle) (tasks : List CopyTask) :
    (queue.trySubmitBatch capacity tasks).Invariant capacity := by
  obtain ⟨submitTail, taskTail⟩ := invariant.idle idle
  have bounded := invariant.bounded
  have polled := invariant.polledBelow
  have answered := invariant.answeredBelow
  have room := invariant.room
  have positive : 0 < warpSpecializedMetaBatch := by decide
  have quiet : ∀ status submittedCount,
      Invariant capacity { queue with status := status, submittedCount := submittedCount } := by
    intro status submittedCount
    refine invariant.withHost ?_ invariant.cachedBelow invariant.stopping
    unfold HostFits
    dsimp only
    rw [idle]
    exact ⟨submitTail, taskTail⟩
  have outstanding : wrapSub 64 queue.submitTail queue.completionHead =
      queue.submitted.length - queue.completionHead := by
    rw [submitTail, wrapSub_of_le (by omega) (by omega)]
  have accepted : ∀ count, queue.accepting = true → 0 < count → count ≤ tasks.length →
      queue.submitted.length + count ≤ queue.completionHead + capacity →
        ¬((tasks.take count).any fun task => task.targetAddress = 0 ∨ task.length = 0) = true →
          Invariant capacity { queue with
            submittedCount := 0, host := .writeTask (tasks.take count) 0 } := by
    intro count accepting some_ few fits valid
    have length : (tasks.take count).length = count := by
      rw [List.length_take]
      omega
    refine invariant.withHost ⟨accepting, length.symm ▸ some_, submitTail.symm, ?_, ?_, ?_⟩
      invariant.cachedBelow invariant.stopping
    · dsimp only
      omega
    · exact taskTail.trans submitTail.symm
    · intro task member empty
      refine valid (List.any_eq_true.mpr ⟨task, member, ?_⟩)
      exact decide_eq_true (.inr empty)
  unfold Queue.trySubmitBatch
  dsimp only
  by_cases refused : queue.accepting = false ∨ tasks = []
  · rw [if_pos refused]
    exact quiet _ _
  · rw [if_neg refused]
    rw [not_or, Bool.not_eq_false] at refused
    have some_ := List.length_pos_iff.mpr refused.2
    rw [outstanding]
    by_cases full : capacity ≤ queue.submitted.length - queue.completionHead
    · rw [if_pos full]
      exact quiet _ _
    · rw [if_neg full]
      generalize chosen : (if tasks.length <
          capacity - (queue.submitted.length - queue.completionHead) then tasks.length
        else capacity - (queue.submitted.length - queue.completionHead)) = count
      have counted : 0 < count ∧ count ≤ tasks.length ∧
          queue.submitted.length + count ≤ queue.completionHead + capacity := by
        rw [← chosen]
        split_ifs <;> omega
      split_ifs with invalid
      · exact quiet _ _
      · exact accepted count refused.1 counted.1 counted.2.1 counted.2.2 invalid

theorem call (call : Call) : (queue.call capacity call).Invariant capacity := by
  unfold Queue.call
  by_cases busy : queue.host ≠ .idle
  · rw [if_pos busy]
    exact invariant
  · rw [if_neg busy]
    have idle := not_not.mp busy
    obtain ⟨submitTail, taskTail⟩ := invariant.idle idle
    cases call with
    | trySubmitBatch tasks => exact invariant.trySubmitBatch idle tasks
    | tryPoll =>
        dsimp only
        split_ifs with stale
        · exact invariant.withHost ⟨submitTail, taskTail⟩ invariant.cachedBelow
            invariant.stopping
        · exact invariant.withHost ⟨submitTail, taskTail, Nat.not_le.mp stale⟩
            invariant.cachedBelow invariant.stopping
    | requestStop =>
        dsimp only
        split_ifs with stopped
        · refine invariant.withHost ?_ invariant.cachedBelow invariant.stopping
          unfold HostFits
          dsimp only
          rw [idle]
          exact ⟨submitTail, taskTail⟩
        · exact invariant.withHost ⟨rfl, submitTail, taskTail⟩ invariant.cachedBelow fun _ => rfl

theorem writeTask {task : CopyTask}
    (room : queue.submitted.length < queue.completionHead + capacity)
    (bounded : queue.submitted.length + 1 + warpSpecializedMetaBatch ≤ 2 ^ 64)
    (valid : task.length ≠ 0) {host : Host} {submitTail : Nat}
    (fits : HostFits capacity { queue with
      taskSlots := Function.update queue.taskSlots (queue.submitted.length % capacity) task
      submitted := queue.submitted ++ [task]
      host, submitTail }) :
    Invariant capacity { queue with
      taskSlots := Function.update queue.taskSlots (queue.submitted.length % capacity) task
      submitted := queue.submitted ++ [task]
      host, submitTail } := by
  have tail := invariant.tail_le
  have answered := invariant.answeredBelow
  have polled := invariant.polledBelow
  refine ⟨?_, fits, invariant.stopping, ?_, polled, invariant.cachedBelow, answered,
    fun other member => ?_, invariant.taskSlots.push task, fun index inside below other found => ?_,
    ?_⟩
  · rw [List.length_append, List.length_singleton]
    exact bounded
  · rw [List.length_append, List.length_singleton]
    exact room
  · rcases List.mem_append.mp member with old | new
    · exact invariant.valid other old
    · rw [List.mem_singleton.mp new]
      exact valid
  · dsimp only at below found
    rw [List.getElem?_append_left (by omega)] at found
    exact invariant.completionSlots index inside below other found
  · dsimp only
    rw [List.take_append_of_le_length (by omega)]
    exact invariant.polled

/-- The host stores a shared word that the device looks at. -/
theorem storeControl {control : Control} {submittedCount : Nat}
    (submitTail : queue.submitTail = queue.submitted.length)
    (taskTail : control.taskTail = queue.submitted.length)
    (completionTail : control.completionTail = queue.control.completionTail)
    (stopping : control.stopRequested ≠ 0 → queue.accepting = false) :
    Invariant capacity { queue with control, submittedCount, status := none, host := .idle } where
  bounded := invariant.bounded
  host := ⟨submitTail, taskTail⟩
  stopping := stopping
  room := invariant.room
  polledBelow := completionTail ▸ invariant.polledBelow
  cachedBelow := completionTail ▸ invariant.cachedBelow
  answeredBelow := completionTail ▸ taskTail ▸ invariant.answeredBelow.trans invariant.tail_le
  valid := invariant.valid
  taskSlots := invariant.taskSlots
  completionSlots := fun index inside below =>
    invariant.completionSlots index inside (completionTail ▸ below)
  polled := invariant.polled

theorem readCompletion (reading : queue.host = .readCompletion) :
    Invariant capacity { queue with
      polled := queue.polled ++ [queue.completionSlots (queue.completionHead % capacity)]
      completionHead := queue.completionHead + 1
      status := none
      host := .idle } := by
  have host := invariant.host
  unfold HostFits at host
  rw [reading] at host
  obtain ⟨submitTail, taskTail, waiting⟩ := host
  have cached := invariant.cachedBelow
  have answered := invariant.answeredBelow
  have room := invariant.room
  have submitted : queue.completionHead < queue.submitted.length := by omega
  have found : queue.submitted[queue.completionHead]? =
      some queue.submitted[queue.completionHead] := List.getElem?_eq_getElem _
  have shown := invariant.completionSlots queue.completionHead (Nat.le_refl _) (by omega) _ found
  refine ⟨invariant.bounded, ⟨submitTail, taskTail⟩, invariant.stopping, ?_, ?_, cached, answered,
    invariant.valid, invariant.taskSlots, fun index inside below => ?_, ?_⟩
  · dsimp only
    omega
  · dsimp only
    omega
  · exact invariant.completionSlots index (Nat.le_of_succ_le inside) below
  · dsimp only
    rw [List.take_add_one, found, Option.toList_some, List.map_append, List.map_singleton, shown,
      invariant.polled]

theorem hostStep (power : isPowerOfTwo capacity = true)
    (bounded : (queue.hostStep capacity).submitted.length + warpSpecializedMetaBatch ≤ 2 ^ 64) :
    (queue.hostStep capacity).Invariant capacity := by
  have host := invariant.host
  have tail := invariant.tail_le
  have now := invariant.bounded
  have answered := invariant.answeredBelow
  have polled := invariant.polledBelow
  have batch : warpSpecializedMetaBatch = 32 := rfl
  have slot_eq : ∀ index, slot capacity index = index % capacity := and_mask power
  unfold HostFits at host
  unfold Queue.hostStep at bounded ⊢
  cases phase : queue.host with
  | idle => exact invariant
  | writeTask tasks index =>
      rw [phase] at host
      obtain ⟨accepting, inside, length, more, taskTail, valid⟩ := host
      have found : tasks[index]? = some tasks[index] := List.getElem?_eq_getElem _
      have nonzero := valid _ (List.getElem_mem inside)
      rw [phase] at bounded
      simp only [found] at bounded ⊢
      have target : slot capacity (wrapAdd 64 queue.submitTail index) =
          queue.submitted.length % capacity := by
        rw [slot_eq, wrapAdd_of_lt (by omega), length]
      rw [target] at bounded ⊢
      split_ifs at bounded ⊢ with rest
      · dsimp only at bounded
        rw [List.length_append, List.length_singleton] at bounded
        refine invariant.writeTask (by omega) bounded nonzero
          ⟨accepting, rest, ?_, more, taskTail, valid⟩
        dsimp only
        rw [List.length_append, List.length_singleton]
        omega
      · dsimp only at bounded
        rw [List.length_append, List.length_singleton] at bounded
        have submitTail : wrapAdd 64 queue.submitTail tasks.length =
            queue.submitted.length + 1 := by
          rw [wrapAdd_of_lt (by omega)]
          omega
        rw [submitTail]
        refine invariant.writeTask (by omega) bounded nonzero ⟨accepting, ?_, ?_⟩
        · dsimp only
          rw [List.length_append, List.length_singleton]
        · dsimp only
          rw [List.length_append, List.length_singleton]
          omega
  | storeTail count =>
      rw [phase] at host
      obtain ⟨accepting, submitTail, taskTail⟩ := host
      exact invariant.storeControl submitTail submitTail rfl invariant.stopping
  | loadTail =>
      rw [phase] at host
      obtain ⟨submitTail, taskTail⟩ := host
      dsimp only
      split_ifs with none
      · exact invariant.withHost ⟨submitTail, taskTail⟩ (Nat.le_refl _) invariant.stopping
      · exact invariant.withHost ⟨submitTail, taskTail, Nat.not_le.mp none⟩ (Nat.le_refl _)
          invariant.stopping
  | readCompletion =>
      have next : wrapAdd 64 queue.completionHead 1 = queue.completionHead + 1 :=
        wrapAdd_of_lt (by omega)
      dsimp only
      rw [next, slot_eq]
      exact invariant.readCompletion phase
  | storeStop =>
      rw [phase] at host
      obtain ⟨accepting, submitTail, taskTail⟩ := host
      exact invariant.storeControl submitTail taskTail rfl fun _ => accepting

/-! ## Steps of the device -/

/-- The device writes a completion that it has not published yet. -/
theorem writeCompletion (power : isPowerOfTwo capacity = true) {index : Nat}
    (unpublished : queue.control.completionTail ≤ index)
    (below : index < queue.control.taskTail) (completion : CopyCompletion) :
    (queue.writeCompletion capacity index completion).Invariant capacity := by
  have tail := invariant.tail_le
  have room := invariant.room
  refine ⟨invariant.bounded, invariant.host, invariant.stopping, room, invariant.polledBelow,
    invariant.cachedBelow, invariant.answeredBelow, invariant.valid, invariant.taskSlots,
    fun other inside published task found => ?_, invariant.polled⟩
  unfold Queue.writeCompletion at published ⊢
  dsimp only at published ⊢
  rw [slot, and_mask power, Function.update_of_ne]
  · exact invariant.completionSlots other inside published task found
  · intro same
    have polled : queue.completionHead ≤ other := inside
    have := RingLog.eq_of_mod_eq (by omega) (by omega) same
    omega

/-- The device publishes the completions that it has written. -/
theorem storeCompletionTail {completionTail : Nat}
    (later : queue.control.completionTail ≤ completionTail)
    (below : completionTail ≤ queue.control.taskTail)
    (shown : ∀ index, queue.control.completionTail ≤ index → index < completionTail →
      queue.Shows capacity index) :
    (queue.storeCompletionTail completionTail).Invariant capacity := by
  refine ⟨invariant.bounded, invariant.host, invariant.stopping, invariant.room,
    invariant.polledBelow.trans later, invariant.cachedBelow.trans later, below, invariant.valid,
    invariant.taskSlots, fun index inside less => ?_, invariant.polled⟩
  rcases Nat.lt_or_ge index queue.control.completionTail with old | new
  · exact invariant.completionSlots index inside old
  · exact shown index new less

end Invariant

/-! ## Submitted tasks -/

theorem submitted_call (queue : Queue) (call : Call) :
    (queue.call capacity call).submitted = queue.submitted := by
  unfold Queue.call
  by_cases busy : queue.host ≠ .idle
  · rw [if_pos busy]
  · rw [if_neg busy]
    cases call with
    | trySubmitBatch tasks =>
        dsimp only
        unfold Queue.trySubmitBatch
        dsimp only
        split_ifs <;> rfl
    | tryPoll =>
        dsimp only
        split_ifs <;> rfl
    | requestStop =>
        dsimp only
        split_ifs <;> rfl

theorem length_submitted_hostStep (queue : Queue) :
    queue.submitted.length ≤ (queue.hostStep capacity).submitted.length := by
  unfold Queue.hostStep
  cases queue.host with
  | writeTask tasks index =>
      dsimp only
      cases tasks[index]? with
      | none => exact Nat.le_refl _
      | some task =>
          dsimp only
          split_ifs <;> (dsimp only; rw [List.length_append]; exact Nat.le_add_right ..)
  | loadTail =>
      dsimp only
      split_ifs <;> exact Nat.le_refl _
  | _ => exact Nat.le_refl _

/-! ## What the device can rely on -/

/-- What stays when the host makes a step. -/
structure HostLater (capacity : Nat) (queue later : Queue) : Prop where
  tail : queue.control.taskTail ≤ later.control.taskTail
  submitted : ∀ (index : Nat) task, queue.submitted[index]? = some task →
    later.submitted[index]? = some task
  final : queue.control.stopRequested ≠ 0 → later.control.stopRequested ≠ 0 ∧
    later.control.taskTail = queue.control.taskTail ∧ later.submitted = queue.submitted
  completionTail : later.control.completionTail = queue.control.completionTail
  completionSlots : later.completionSlots = queue.completionSlots
  /-- A task stays in its slot until its completion is polled. -/
  taskSlots : ∀ index < queue.submitted.length, queue.completionHead ≤ index →
    later.taskSlots (index % capacity) = queue.taskSlots (index % capacity)

theorem HostLater.refl (queue : Queue) : HostLater capacity queue queue :=
  ⟨Nat.le_refl _, fun _ _ found => found, fun stop => ⟨stop, rfl, rfl⟩, rfl, rfl, fun _ _ _ => rfl⟩

theorem trySubmitBatch_later (tasks : List CopyTask) :
    HostLater capacity queue (queue.trySubmitBatch capacity tasks) := by
  have same := @HostLater.refl capacity queue
  unfold Queue.trySubmitBatch
  dsimp only
  split_ifs
  all_goals
    exact ⟨same.tail, same.submitted, same.final, rfl, rfl, same.taskSlots⟩

theorem call_later (call : Call) : HostLater capacity queue (queue.call capacity call) := by
  have same := @HostLater.refl capacity queue
  unfold Queue.call
  by_cases busy : queue.host ≠ .idle
  · rw [if_pos busy]
    exact same
  · rw [if_neg busy]
    cases call with
    | trySubmitBatch tasks => exact trySubmitBatch_later tasks
    | tryPoll =>
        dsimp only
        split_ifs
        all_goals exact ⟨same.tail, same.submitted, same.final, rfl, rfl, same.taskSlots⟩
    | requestStop =>
        dsimp only
        split_ifs
        all_goals exact ⟨same.tail, same.submitted, same.final, rfl, rfl, same.taskSlots⟩

theorem Invariant.hostStep_later (invariant : queue.Invariant capacity)
    (power : isPowerOfTwo capacity = true) :
    HostLater capacity queue (queue.hostStep capacity) := by
  have same := @HostLater.refl capacity queue
  have host := invariant.host
  have bounded := invariant.bounded
  have room := invariant.room
  have batch : warpSpecializedMetaBatch = 32 := rfl
  have running : queue.accepting = true → ¬queue.control.stopRequested ≠ 0 := by
    intro accepting stop
    rw [invariant.stopping stop] at accepting
    exact Bool.false_ne_true accepting
  unfold HostFits at host
  unfold Queue.hostStep
  cases phase : queue.host with
  | idle => exact same
  | writeTask tasks index =>
      rw [phase] at host
      obtain ⟨accepting, inside, length, more, -, -⟩ := host
      have found : tasks[index]? = some tasks[index] := List.getElem?_eq_getElem _
      have target : slot capacity (wrapAdd 64 queue.submitTail index) =
          queue.submitted.length % capacity := by
        rw [slot, and_mask power, wrapAdd_of_lt (by omega), length]
      have kept : ∀ (task : CopyTask), ∀ other < queue.submitted.length,
          queue.completionHead ≤ other →
            Function.update queue.taskSlots (queue.submitted.length % capacity) task
              (other % capacity) = queue.taskSlots (other % capacity) := by
        intro task other below polled
        rw [Function.update_of_ne]
        intro equal
        have := RingLog.eq_of_mod_eq (by omega) (by omega) equal
        omega
      simp only [found, target]
      split_ifs
      all_goals
        refine ⟨Nat.le_refl _, fun other task member => ?_,
          fun stop => absurd stop (running accepting), rfl, rfl, kept _⟩
        dsimp only
        rw [List.getElem?_append_left (List.getElem?_eq_some_iff.mp member).1]
        exact member
  | storeTail count =>
      rw [phase] at host
      obtain ⟨accepting, submitTail, taskTail⟩ := host
      exact ⟨taskTail.trans submitTail.ge, same.submitted,
        fun stop => absurd stop (running accepting), rfl, rfl, same.taskSlots⟩
  | loadTail =>
      dsimp only
      split_ifs
      all_goals exact ⟨same.tail, same.submitted, same.final, rfl, rfl, same.taskSlots⟩
  | readCompletion => exact ⟨same.tail, same.submitted, same.final, rfl, rfl, same.taskSlots⟩
  | storeStop =>
      exact ⟨same.tail, same.submitted, fun _ => ⟨Nat.one_ne_zero, rfl, rfl⟩, rfl, rfl,
        same.taskSlots⟩

/-- A batch is not empty, and all of it is below the tail. -/
theorem Invariant.fetch_batch (invariant : queue.Invariant capacity) {head count : Nat}
    {fetch : Fetch} (fetched : queue.fetch head fetch = .batch count) :
    0 < count ∧ count ≤ warpSpecializedMetaBatch ∧ head + count ≤ queue.control.taskTail := by
  have bounded := invariant.bounded
  have tail := invariant.tail_le
  have batch : warpSpecializedMetaBatch = 32 := rfl
  unfold Queue.fetch at fetched
  split at fetched
  · dsimp only at fetched
    split_ifs at fetched with some_ few
    · have available : wrapSub 64 queue.control.taskTail head =
          queue.control.taskTail - head := wrapSub_of_le (by omega) (by omega)
      injection fetched with chosen
      omega
    · have available : wrapSub 64 queue.control.taskTail head =
          queue.control.taskTail - head := wrapSub_of_le (by omega) (by omega)
      injection fetched with chosen
      omega
  · cases fetched
  · split_ifs at fetched

/-- A warp stops when nothing is left, after a request to stop. -/
theorem fetch_stop {head : Nat} {fetch : Fetch} (fetched : queue.fetch head fetch = .stop) :
    fetch = .loadFinalTail ∧ queue.control.taskTail ≤ head := by
  unfold Queue.fetch at fetched
  split at fetched
  · dsimp only at fetched
    split_ifs at fetched
  · cases fetched
  · split_ifs at fetched with none
    exact ⟨rfl, none⟩

/-- The final tail is loaded only after a request to stop. -/
theorem fetch_again {head : Nat} {fetch : Fetch}
    (fetched : queue.fetch head fetch = .again .loadFinalTail) :
    queue.control.stopRequested ≠ 0 := by
  unfold Queue.fetch at fetched
  split at fetched
  · dsimp only at fetched
    split_ifs at fetched
    cases fetched
  · split_ifs at fetched with stop
    · exact stop
    · cases fetched
  · split_ifs at fetched
    cases fetched

/-- What the host has told the device. -/
def published (queue : Queue) : Nat × Nat :=
  (queue.control.taskTail, queue.control.stopRequested)

/-! ## Looking for tasks -/

section

variable {head : Nat} {fetch next : Fetch}

/-- A warp behind `head` has something to find. -/
def Awaits (queue : Queue) (head : Nat) : Prop :=
  head < queue.control.taskTail ∨ queue.control.stopRequested ≠ 0

/-- The accesses before a warp finds it. -/
def fetchWork (queue : Queue) (head : Nat) (fetch : Fetch) : Nat :=
  if head < queue.control.taskTail then
    match fetch with
    | .loadTail => 0
    | .loadFinalTail => 1
    | .loadStop => 2
  else if queue.control.stopRequested ≠ 0 then
    match fetch with
    | .loadFinalTail => 0
    | .loadStop => 1
    | .loadTail => 2
  else
    0

theorem fetchWork_le (queue : Queue) (head : Nat) (fetch : Fetch) :
    queue.fetchWork head fetch ≤ 2 := by
  unfold fetchWork
  split_ifs <;> cases fetch <;> decide

theorem fetchWork_again (fetched : queue.fetch head fetch = .again next)
    (awaits : queue.Awaits head) : queue.fetchWork head next < queue.fetchWork head fetch := by
  unfold fetchWork
  cases fetch with
  | loadTail =>
      unfold Queue.fetch at fetched
      dsimp only at fetched
      by_cases some_ : head < queue.control.taskTail
      · rw [if_pos some_] at fetched
        cases fetched
      · rw [if_neg some_] at fetched
        cases fetched
        have stop := awaits.resolve_left some_
        rw [if_neg some_, if_pos stop, if_neg some_, if_pos stop]
        decide
  | loadStop =>
      unfold Queue.fetch at fetched
      dsimp only at fetched
      by_cases stop : queue.control.stopRequested ≠ 0
      · rw [if_pos stop] at fetched
        cases fetched
        rw [if_pos stop, if_pos stop]
        split_ifs <;> decide
      · rw [if_neg stop] at fetched
        cases fetched
        have some_ := awaits.resolve_right stop
        rw [if_pos some_, if_pos some_]
        decide
  | loadFinalTail =>
      unfold Queue.fetch at fetched
      dsimp only at fetched
      by_cases none : queue.control.taskTail ≤ head
      · rw [if_pos none] at fetched
        cases fetched
      · rw [if_neg none] at fetched
        cases fetched
        have some_ := Nat.not_le.mp none
        rw [if_pos some_, if_pos some_]
        decide

theorem fetchWork_idle (idle : ¬queue.Awaits head) (fetch : Fetch) :
    queue.fetchWork head fetch = 0 := by
  obtain ⟨none, going⟩ := not_or.mp idle
  unfold fetchWork
  rw [if_neg none, if_neg going]

/-- A warp that has nothing to find goes on looking, as far from finding something as before. -/
theorem fetch_idle (idle : ¬queue.Awaits head)
    (known : fetch = .loadFinalTail → queue.control.stopRequested ≠ 0) :
    ∃ next, queue.fetch head fetch = .again next ∧
      queue.fetchWork head next = queue.fetchWork head fetch := by
  have same : ∀ next, queue.fetchWork head next = queue.fetchWork head fetch := fun next =>
    (fetchWork_idle idle next).trans (fetchWork_idle idle fetch).symm
  obtain ⟨none, going⟩ := not_or.mp idle
  cases fetch with
  | loadTail => exact ⟨_, if_neg none, same _⟩
  | loadStop => exact ⟨_, rfl, same _⟩
  | loadFinalTail => exact absurd (known rfl) going

end

end Queue

end Ugdr.Gpu.WarpSpecialized
