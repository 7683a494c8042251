import Ugdr.Foundation.Execution
import Ugdr.Foundation.Machine
import Ugdr.Gpu.DeviceQueues

/-! # The static partition queue

`StaticPartitionSpscQueue` on the host and `static_partition_spsc_kernel` on the device. Every
warp owns the indices of one residue class. Every access to shared memory is a step of its
own, and so is every copy; the lanes of a warp follow one another.
-/

namespace Ugdr.Gpu.StaticPartition

open Machine

/-- The sizes that `StaticPartitionSpscQueue::allocate` accepts. -/
structure Shape where
  capacity : Nat
  copyWarps : Nat
  deviceBatch : Nat
  batch : isSupportedDeviceBatch deviceBatch = true
  fits : deviceBatch ≤ capacity
  allocates : (staticPartitionSpscAllocationSize capacity copyWarps).isSome = true

structure Control where
  taskTail : Nat := 0
  stopRequested : Nat := 0
  deriving DecidableEq, Repr

structure CompletionSlot where
  completion : CopyCompletion := ⟨0, .success⟩
  sequence : Nat := 0
  deriving DecidableEq, Repr

/-- What a warp does next. -/
inductive Phase
  | loadTail
  | loadStop
  | loadFinalTail
  | loadTask (taskCount : Nat) (tasks : List CopyTask)
  | copy (tasks : List CopyTask) (batchIndex : Nat)
  | writeCompletion (tasks : List CopyTask) (lane : Nat)
  | publish (tasks : List CopyTask) (lane : Nat)
  | stopped
  deriving DecidableEq, Repr

structure Warp where
  ownedIndex : Nat
  phase : Phase := .loadTail
  deriving DecidableEq, Repr

/-- What the host does next. -/
inductive Host
  | idle
  | writeTask (tasks : List CopyTask) (index : Nat)
  | storeTail (count : Nat)
  | loadSequence
  | readCompletion
  | storeStop
  deriving DecidableEq, Repr

/-- The memory that the two sides share, the private fields of the host, and for each party
what it does next. -/
structure System (shape : Shape) where
  control : Control := {}
  taskSlots : Nat → CopyTask := fun _ => ⟨0, 0, 0, 0⟩
  completionSlots : Nat → CompletionSlot := fun _ => {}
  warps : Fin shape.copyWarps → Warp := fun warp => { ownedIndex := warp }
  host : Host := .idle
  submitTail : Nat := 0
  completionHead : Nat := 0
  accepting : Bool := true
  /-- What the last call returned. -/
  status : Status := none
  submittedCount : Nat := 0
  /-- The tasks that were written to the slots. -/
  submitted : List CopyTask := []
  copied : List CopyRecord := []
  /-- The completions that `try_poll` has returned. -/
  polled : List CopyCompletion := []

namespace System

variable {shape : Shape}

/-- `index & capacity_mask_`. -/
def slot (shape : Shape) (index : Nat) : Nat :=
  index &&& (shape.capacity - 1)

/-! ## The host -/

inductive Call
  | trySubmitBatch (tasks : List CopyTask)
  | tryPoll
  | requestStop

/-- `try_submit_batch` up to its first access to the slots. -/
def trySubmitBatch (system : System shape) (tasks : List CopyTask) : System shape :=
  let system := { system with submittedCount := 0 }
  if system.accepting = false ∨ tasks = [] then
    { system with status := some .einval }
  else
    let outstanding := wrapSub 64 system.submitTail system.completionHead
    if shape.capacity ≤ outstanding then
      { system with status := some .eagain }
    else
      let available := shape.capacity - outstanding
      let count := if tasks.length < available then tasks.length else available
      if (tasks.take count).any fun task => task.targetAddress = 0 ∨ task.length = 0 then
        { system with status := some .einval }
      else
        { system with host := .writeTask (tasks.take count) 0 }

/-- The queue is running, and the host makes one call at a time. -/
def call (system : System shape) (call : Call) : System shape :=
  if system.host ≠ .idle then
    system
  else
    match call with
    | .trySubmitBatch tasks => system.trySubmitBatch tasks
    | .tryPoll => { system with host := .loadSequence }
    | .requestStop =>
        if system.accepting = false then
          { system with status := some .einval }
        else
          { system with accepting := false, host := .storeStop }

/-- The next access that the host makes. -/
def hostStep (system : System shape) : System shape :=
  match system.host with
  | .idle => system
  | .writeTask tasks index =>
      match tasks[index]? with
      | none => system
      | some task =>
          let system :=
            { system with
              taskSlots := Function.update system.taskSlots
                (slot shape (wrapAdd 64 system.submitTail index)) task
              submitted := system.submitted ++ [task] }
          if index + 1 < tasks.length then
            { system with host := .writeTask tasks (index + 1) }
          else
            { system with
              host := .storeTail tasks.length
              submitTail := wrapAdd 64 system.submitTail tasks.length }
  | .storeTail count =>
      { system with
        control := { system.control with taskTail := system.submitTail }
        submittedCount := count
        status := none
        host := .idle }
  | .loadSequence =>
      if (system.completionSlots (slot shape system.completionHead)).sequence ≠
          wrapAdd 64 system.completionHead 1 then
        { system with status := some .eagain, host := .idle }
      else
        { system with host := .readCompletion }
  | .readCompletion =>
      let read := system.completionSlots (slot shape system.completionHead)
      { system with
        polled := system.polled ++ [read.completion]
        completionHead := wrapAdd 64 system.completionHead 1
        status := none
        host := .idle }
  | .storeStop =>
      { system with
        control := { system.control with stopRequested := 1 }
        status := none
        host := .idle }

/-! ## The warps -/

def copyWarpShift (copyWarps : Nat) : Nat :=
  if copyWarps = 4 then 2 else if copyWarps = 8 then 3 else if copyWarps = 16 then 4 else 5

/-- The tasks of the partition that the tail shows, as many as a batch takes. -/
def taskCount (shape : Shape) (ownedIndex taskTail : Nat) : Nat :=
  let available := wrapAdd 64
    (wrapSub 64 (wrapSub 64 taskTail 1) ownedIndex >>> copyWarpShift shape.copyWarps) 1
  if available < shape.deviceBatch then available else shape.deviceBatch

def laneTaskIndex (shape : Shape) (ownedIndex lane : Nat) : Nat :=
  wrapAdd 64 ownedIndex (lane * shape.copyWarps)

def move (system : System shape) (warp : Fin shape.copyWarps) (phase : Phase) : System shape :=
  { system with
    warps := Function.update system.warps warp { system.warps warp with phase } }

/-- The next access that a warp makes, or its next copy. -/
def warpStep (system : System shape) (warp : Fin shape.copyWarps) : System shape :=
  let ownedIndex := (system.warps warp).ownedIndex
  match (system.warps warp).phase with
  | .loadTail =>
      let taskTail := system.control.taskTail
      if taskTail ≤ ownedIndex then
        system.move warp .loadStop
      else
        system.move warp (.loadTask (taskCount shape ownedIndex taskTail) [])
  | .loadStop =>
      system.move warp (if system.control.stopRequested ≠ 0 then .loadFinalTail else .loadTail)
  | .loadFinalTail =>
      let taskTail := system.control.taskTail
      if taskTail ≤ ownedIndex then
        system.move warp .stopped
      else
        system.move warp (.loadTask (taskCount shape ownedIndex taskTail) [])
  | .loadTask taskCount tasks =>
      let task := system.taskSlots (slot shape (laneTaskIndex shape ownedIndex tasks.length))
      let tasks := tasks ++ [task]
      system.move warp
        (if tasks.length < taskCount then .loadTask taskCount tasks else .copy tasks 0)
  | .copy tasks batchIndex =>
      match tasks[batchIndex]? with
      | none => system
      | some task =>
          let index := laneTaskIndex shape ownedIndex batchIndex
          { system with copied := system.copied ++ [CopyRecord.mk warp index task] }.move warp
            (if batchIndex + 1 < tasks.length then .copy tasks (batchIndex + 1)
              else .writeCompletion tasks 0)
  | .writeCompletion tasks lane =>
      match tasks[lane]? with
      | none => system
      | some task =>
          let index := slot shape (laneTaskIndex shape ownedIndex lane)
          { system with
            completionSlots := Function.update system.completionSlots index
              { system.completionSlots index with completion := ⟨task.taskId, .success⟩ } }.move
            warp (.publish tasks lane)
  | .publish tasks lane =>
      let laneTaskIndex := laneTaskIndex shape ownedIndex lane
      let index := slot shape laneTaskIndex
      let system :=
        { system with
          completionSlots := Function.update system.completionSlots index
            { system.completionSlots index with sequence := wrapAdd 64 laneTaskIndex 1 } }
      if lane + 1 < tasks.length then
        system.move warp (.writeCompletion tasks (lane + 1))
      else
        { system with
          warps := Function.update system.warps warp
            { ownedIndex := wrapAdd 64 ownedIndex (tasks.length * shape.copyWarps) } }
  | .stopped => system

inductive Action (shape : Shape)
  | call (call : Call)
  | host
  | warp (warp : Fin shape.copyWarps)

def step (system : System shape) : Action shape → System shape
  | .call call => system.call call
  | .host => system.hostStep
  | .warp warp => system.warpStep warp

end System

end Ugdr.Gpu.StaticPartition
