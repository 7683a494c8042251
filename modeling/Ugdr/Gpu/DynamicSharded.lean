import Ugdr.Foundation.Execution
import Ugdr.Foundation.LaneLogs
import Ugdr.Foundation.Machine
import Ugdr.Gpu.DeviceQueues

/-! # The dynamic sharded queue

`DynamicShardedSpscQueue` on the host and `dynamic_sharded_spsc_kernel` on the device. Every
warp has a lane with slots and counters of its own, and the host chooses the lane of a task.
Every access to shared memory is a step of its own, and so is every copy.
-/

namespace Ugdr.Gpu.DynamicSharded

open Machine

/-- The sizes that `DynamicShardedSpscQueue::allocate` accepts. -/
structure Shape where
  capacity : Nat
  laneCount : Nat
  deviceBatch : Nat
  batch : isSupportedDeviceBatch deviceBatch = true
  fits : deviceBatch ≤ capacity
  allocates : (dynamicShardedSpscAllocationSize capacity laneCount).isSome = true

def Shape.laneCapacity (shape : Shape) : Nat :=
  shape.capacity / shape.laneCount

structure Control where
  taskTail : Nat := 0
  completionTail : Nat := 0
  stopRequested : Nat := 0
  deriving DecidableEq, Repr

/-- What a warp does next. -/
inductive Phase
  | loadTail
  | loadStop
  | loadFinalTail
  | readTask (taskCount batchIndex : Nat)
  | copy (taskCount batchIndex : Nat) (task : CopyTask)
  | writeCompletion (taskCount batchIndex : Nat) (task : CopyTask)
  | storeTail (taskCount : Nat)
  | stopped
  deriving DecidableEq, Repr

structure Warp where
  taskHead : Nat := 0
  phase : Phase := .loadTail
  deriving DecidableEq, Repr

/-- What the host does next. -/
inductive Host
  | idle
  | writeTask (tasks : List CopyTask) (index dirtyLanes : Nat)
  | storeTail (count dirtyLanes lane : Nat)
  | loadTail (visited selectedLane : Nat)
  | readCompletion (selectedLane : Nat)
  | storeStop (lane : Nat)
  deriving DecidableEq, Repr

/-- The memory that the two sides share, the private fields of the host, and for each party
what it does next. -/
structure System (shape : Shape) where
  controls : Nat → Control := fun _ => {}
  taskSlots : Nat → CopyTask := fun _ => ⟨0, 0, 0, 0⟩
  completionSlots : Nat → CopyCompletion := fun _ => ⟨0, .success⟩
  warps : Nat → Warp := fun _ => {}
  host : Host := .idle
  submitTails : Nat → Nat := fun _ => 0
  completionHeads : Nat → Nat := fun _ => 0
  submitCursor : Nat := 0
  completionCursor : Nat := 0
  acceptedTasks : Nat := 0
  completedTasks : Nat := 0
  accepting : Bool := true
  /-- What the last call returned. -/
  status : Status := none
  submittedCount : Nat := 0
  /-- The tasks that were written to the slots, each with its lane. -/
  submitted : List (Nat × CopyTask) := []
  copied : List (Nat × CopyTask) := []
  /-- The completions that `try_poll` has returned. -/
  polled : List (Nat × CopyCompletion) := []

namespace System

variable {shape : Shape}

def slotIndex (shape : Shape) (lane index : Nat) : Nat :=
  lane * shape.laneCapacity + (index &&& (shape.laneCapacity - 1))

/-! ## The host -/

inductive Call
  | trySubmitBatch (tasks : List CopyTask)
  | tryPoll
  | requestStop

/-- `try_submit_batch` up to its first access to the slots. -/
def trySubmitBatch (system : System shape) (tasks : List CopyTask) : System shape :=
  let system : System shape := { system with submittedCount := 0 }
  if system.accepting = false ∨ tasks = [] then
    { system with status := some .einval }
  else
    let outstanding := wrapSub 64 system.acceptedTasks system.completedTasks
    if shape.capacity ≤ outstanding then
      { system with status := some .eagain }
    else
      let available := shape.capacity - outstanding
      let count := if tasks.length < available then tasks.length else available
      if (tasks.take count).any fun task => task.targetAddress = 0 ∨ task.length = 0 then
        { system with status := some .einval }
      else
        { system with host := .writeTask (tasks.take count) 0 0 }

/-- The queue is running, and the host makes one call at a time. -/
def call (system : System shape) (call : Call) : System shape :=
  if system.host ≠ .idle then
    system
  else
    match call with
    | .trySubmitBatch tasks => system.trySubmitBatch tasks
    | .tryPoll => { system with host := .loadTail 0 system.completionCursor }
    | .requestStop =>
        if system.accepting = false then
          { system with status := some .einval }
        else
          { system with accepting := false, host := .storeStop 0 }

def nextLane (shape : Shape) (lane : Nat) : Nat :=
  let lane := wrapAdd 32 lane 1
  if lane = shape.laneCount then 0 else lane

/-- The first lane with room, of as many as are visited. -/
def selectLane (system : System shape) : (visits selectedLane : Nat) → Option Nat
  | 0, _ => none
  | visits + 1, selectedLane =>
      let laneOutstanding :=
        wrapSub 64 (system.submitTails selectedLane) (system.completionHeads selectedLane)
      if laneOutstanding < shape.laneCapacity then
        some selectedLane
      else
        system.selectLane visits (nextLane shape selectedLane)

/-- A task goes to the next slot of the lane that was selected. -/
def push (system : System shape) (lane : Nat) (task : CopyTask) : System shape :=
  { system with
    taskSlots := Function.update system.taskSlots
      (slotIndex shape lane (system.submitTails lane)) task
    submitTails := Function.update system.submitTails lane
      (wrapAdd 64 (system.submitTails lane) 1)
    submitCursor := nextLane shape lane
    submitted := system.submitted ++ [(lane, task)] }

/-- The completion in the next slot of a lane is polled. -/
def pop (system : System shape) (lane : Nat) : System shape :=
  { system with
    polled := system.polled ++
      [(lane, system.completionSlots (slotIndex shape lane (system.completionHeads lane)))]
    completionHeads := Function.update system.completionHeads lane
      (wrapAdd 64 (system.completionHeads lane) 1)
    completedTasks := wrapAdd 64 system.completedTasks 1
    completionCursor := nextLane shape lane
    status := none
    host := .idle }

/-- The next access that the host makes. -/
def hostStep (system : System shape) : System shape :=
  match system.host with
  | .idle => system
  | .writeTask tasks index dirtyLanes =>
      match tasks[index]? with
      | none => system
      | some task =>
          match system.selectLane shape.laneCount system.submitCursor with
          | none => { system with status := some .eio, host := .idle }
          | some lane =>
              let dirtyLanes := dirtyLanes ||| (1 <<< lane)
              { system.push lane task with
                host :=
                  if index + 1 < tasks.length then
                    .writeTask tasks (index + 1) dirtyLanes
                  else
                    .storeTail tasks.length dirtyLanes 0 }
  | .storeTail count dirtyLanes lane =>
      let controls :=
        if dirtyLanes &&& (1 <<< lane) ≠ 0 then
          Function.update system.controls lane
            { system.controls lane with taskTail := system.submitTails lane }
        else
          system.controls
      if lane + 1 < shape.laneCount then
        { system with controls, host := .storeTail count dirtyLanes (lane + 1) }
      else
        { system with
          controls
          acceptedTasks := wrapAdd 64 system.acceptedTasks count
          submittedCount := count
          status := none
          host := .idle }
  | .loadTail visited selectedLane =>
      if system.completionHeads selectedLane < (system.controls selectedLane).completionTail then
        { system with host := .readCompletion selectedLane }
      else if visited + 1 < shape.laneCount then
        { system with host := .loadTail (visited + 1) (nextLane shape selectedLane) }
      else
        { system with status := some .eagain, host := .idle }
  | .readCompletion selectedLane => system.pop selectedLane
  | .storeStop lane =>
      let controls := Function.update system.controls lane
        { system.controls lane with stopRequested := 1 }
      if lane + 1 < shape.laneCount then
        { system with controls, host := .storeStop (lane + 1) }
      else
        { system with controls, status := none, host := .idle }

/-! ## The warps -/

/-- The tasks that the tail shows, as many as a batch takes. -/
def taskCount (shape : Shape) (taskHead taskTail : Nat) : Nat :=
  let available := wrapSub 64 taskTail taskHead
  if available < shape.deviceBatch then available else shape.deviceBatch

def move (system : System shape) (warp : Nat) (phase : Phase) : System shape :=
  { system with
    warps := Function.update system.warps warp { system.warps warp with phase } }

/-- The next access that a warp makes, or its next copy. -/
def warpStep (system : System shape) (warp : Nat) : System shape :=
  let taskHead := (system.warps warp).taskHead
  match (system.warps warp).phase with
  | .loadTail =>
      let taskTail := (system.controls warp).taskTail
      if taskHead < taskTail then
        system.move warp (.readTask (taskCount shape taskHead taskTail) 0)
      else
        system.move warp .loadStop
  | .loadStop =>
      system.move warp
        (if (system.controls warp).stopRequested ≠ 0 then .loadFinalTail else .loadTail)
  | .loadFinalTail =>
      let finalTail := (system.controls warp).taskTail
      if finalTail ≤ taskHead then
        system.move warp .stopped
      else
        system.move warp (.readTask (taskCount shape taskHead finalTail) 0)
  | .readTask taskCount batchIndex =>
      system.move warp (.copy taskCount batchIndex
        (system.taskSlots (slotIndex shape warp (wrapAdd 64 taskHead batchIndex))))
  | .copy taskCount batchIndex task =>
      { system with copied := system.copied ++ [(warp, task)] }.move warp
        (.writeCompletion taskCount batchIndex task)
  | .writeCompletion taskCount batchIndex task =>
      { system with
        completionSlots := Function.update system.completionSlots
          (slotIndex shape warp (wrapAdd 64 taskHead batchIndex)) ⟨task.taskId, .success⟩ }.move
        warp (if batchIndex + 1 < taskCount then .readTask taskCount (batchIndex + 1)
          else .storeTail taskCount)
  | .storeTail taskCount =>
      let taskHead := wrapAdd 64 taskHead taskCount
      { system with
        controls := Function.update system.controls warp
          { system.controls warp with completionTail := taskHead }
        warps := Function.update system.warps warp { taskHead } }
  | .stopped => system

inductive Action (shape : Shape)
  | call (call : Call)
  | host
  | warp (warp : Fin shape.laneCount)

def step (system : System shape) : Action shape → System shape
  | .call call => system.call call
  | .host => system.hostStep
  | .warp warp => system.warpStep warp

end System

end Ugdr.Gpu.DynamicSharded
