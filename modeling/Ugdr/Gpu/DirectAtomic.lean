import Mathlib.Data.Fintype.BigOperators
import Ugdr.Foundation.Execution
import Ugdr.Gpu.CopyHost

/-! # The direct atomic queue

`DirectAtomicQueue` on the host and `direct_atomic_kernel` on the device. The copy warps
claim tasks and reserve completions by two separate atomic operations. Every access to
shared memory is a step of its own, and so is every copy.
-/

namespace Ugdr.Gpu.DirectAtomic

open Machine

/-- The sizes that `DirectAtomicQueue::allocate` accepts. -/
structure Shape where
  capacity : Nat
  copyWarps : Nat
  deviceBatch : Nat
  power : isPowerOfTwo capacity = true
  warps : copyWarps ∈ [4, 8, 16, 32]
  batch : deviceBatch ∈ [1, 2, 4, 8, 16, 32]
  fits : deviceBatch ≤ capacity

structure Control where
  taskTail : Nat := 0
  taskHead : Nat := 0
  completionTail : Nat := 0
  stopRequested : Nat := 0
  deriving DecidableEq, Repr

structure CompletionSlot where
  completion : CopyCompletion := ⟨0, .success⟩
  sequence : Nat := 0
  batchStart : Nat := 0
  deriving DecidableEq, Repr

/-- The tasks that a warp has claimed, with the completions it has reserved for them. -/
structure Batch where
  taskBase : Nat
  taskCount : Nat
  completionBase : Nat
  batchIndex : Nat := 0
  deriving DecidableEq, Repr

namespace Batch

def taskIndex (batch : Batch) : Nat :=
  wrapAdd 64 batch.taskBase batch.batchIndex

def completionIndex (batch : Batch) : Nat :=
  wrapAdd 64 batch.completionBase batch.batchIndex

end Batch

/-- What a warp does next. -/
inductive Warp
  | loadTail
  | loadHead (tail : Nat)
  | claim (head taskCount : Nat)
  | loadStop
  | loadFinalTail
  | loadFinalHead (finalTail : Nat)
  | reserve (taskBase taskCount : Nat)
  | loadTask (batch : Batch)
  | copy (batch : Batch) (task : CopyTask)
  | writeCompletion (batch : Batch) (task : CopyTask)
  | publish (batch : Batch)
  | stopped
  deriving DecidableEq, Repr

/-- What the host does next. -/
inductive Host
  | idle
  | writeTask (tasks : List CopyTask) (index : Nat)
  | storeTail (count : Nat)
  | loadSequence
  | readCompletion
  | storeStop
  deriving DecidableEq, Repr

/-- The memory that the two sides share, the private fields of the host, and for each party
what it does next. -/
structure System (shape : Shape) where
  control : Control := {}
  taskSlots : Nat → CopyTask := fun _ => ⟨0, 0, 0, 0⟩
  completionSlots : Nat → CompletionSlot := fun _ => {}
  warps : Fin shape.copyWarps → Warp := fun _ => .loadTail
  host : Host := .idle
  submitTail : Nat := 0
  completionHead : Nat := 0
  completedDeviceBatches : Nat := 0
  accepting : Bool := true
  /-- What the last call returned. -/
  status : Status := none
  submittedCount : Nat := 0
  /-- The tasks that were written to the slots. -/
  submitted : List CopyTask := []
  /-- The copies that were made, with the index of the task each was made for. -/
  copied : List (Nat × CopyTask) := []
  /-- The completions that were published, with the indices of their tasks. -/
  published : List (Nat × Nat) := []
  /-- The completions that `try_poll` has returned. -/
  polled : List CopyCompletion := []

namespace System

variable {shape : Shape}

/-- `index & capacity_mask_`. -/
def slot (shape : Shape) (index : Nat) : Nat :=
  index &&& (shape.capacity - 1)

/-! ## The host -/

inductive Call
  | trySubmitBatch (tasks : List CopyTask)
  | tryPoll
  | requestStop

/-- `try_submit_batch` up to its first access to the slots. -/
def trySubmitBatch (system : System shape) (tasks : List CopyTask) : System shape :=
  let system := { system with submittedCount := 0 }
  if system.accepting = false ∨ tasks = [] then
    { system with status := some .einval }
  else
    let outstanding := wrapSub 64 system.submitTail system.completionHead
    if shape.capacity ≤ outstanding then
      { system with status := some .eagain }
    else
      let available := shape.capacity - outstanding
      let count := if tasks.length < available then tasks.length else available
      if (tasks.take count).any fun task => task.targetAddress = 0 ∨ task.length = 0 then
        { system with status := some .einval }
      else
        { system with host := .writeTask (tasks.take count) 0 }

/-- The queue is running, and the host makes one call at a time. -/
def call (system : System shape) (call : Call) : System shape :=
  if system.host ≠ .idle then
    system
  else
    match call with
    | .trySubmitBatch tasks => system.trySubmitBatch tasks
    | .tryPoll => { system with host := .loadSequence }
    | .requestStop =>
        if system.accepting = false then
          { system with status := some .einval }
        else
          { system with accepting := false, host := .storeStop }

/-- The next access that the host makes. -/
def hostStep (system : System shape) : System shape :=
  match system.host with
  | .idle => system
  | .writeTask tasks index =>
      match tasks[index]? with
      | none => system
      | some task =>
          let system :=
            { system with
              taskSlots := Function.update system.taskSlots
                (slot shape (wrapAdd 64 system.submitTail index)) task
              submitted := system.submitted ++ [task] }
          if index + 1 < tasks.length then
            { system with host := .writeTask tasks (index + 1) }
          else
            { system with
              host := .storeTail tasks.length
              submitTail := wrapAdd 64 system.submitTail tasks.length }
  | .storeTail count =>
      { system with
        control := { system.control with taskTail := system.submitTail }
        submittedCount := count
        status := none
        host := .idle }
  | .loadSequence =>
      if (system.completionSlots (slot shape system.completionHead)).sequence ≠
          wrapAdd 64 system.completionHead 1 then
        { system with status := some .eagain, host := .idle }
      else
        { system with host := .readCompletion }
  | .readCompletion =>
      let read := system.completionSlots (slot shape system.completionHead)
      { system with
        polled := system.polled ++ [read.completion]
        completedDeviceBatches := wrapAdd 64 system.completedDeviceBatches read.batchStart
        completionHead := wrapAdd 64 system.completionHead 1
        status := none
        host := .idle }
  | .storeStop =>
      { system with
        control := { system.control with stopRequested := 1 }
        status := none
        host := .idle }

/-! ## The warps -/

def move (system : System shape) (warp : Fin shape.copyWarps) (next : Warp) : System shape :=
  { system with warps := Function.update system.warps warp next }

/-- The head of the loop over a batch. -/
def nextTask (batch : Batch) : Warp :=
  if batch.batchIndex < batch.taskCount then .loadTask batch else .loadTail

/-- The next access that a warp makes, or its next copy. -/
def warpStep (system : System shape) (warp : Fin shape.copyWarps) : System shape :=
  match system.warps warp with
  | .loadTail => system.move warp (.loadHead system.control.taskTail)
  | .loadHead tail =>
      let head := system.control.taskHead
      if head < tail then
        let available := wrapSub 64 tail head
        let taskCount :=
          if available < shape.deviceBatch then available else shape.deviceBatch
        system.move warp (.claim head taskCount)
      else
        system.move warp .loadStop
  | .claim head taskCount =>
      if system.control.taskHead = head then
        { system with
          control := { system.control with taskHead := wrapAdd 64 head taskCount } }.move
          warp (.reserve head taskCount)
      else
        system.move warp .loadTail
  | .loadStop =>
      system.move warp (if system.control.stopRequested ≠ 0 then .loadFinalTail else .loadTail)
  | .loadFinalTail => system.move warp (.loadFinalHead system.control.taskTail)
  | .loadFinalHead finalTail =>
      system.move warp (if finalTail ≤ system.control.taskHead then .stopped else .loadTail)
  | .reserve taskBase taskCount =>
      let completionBase := system.control.completionTail
      { system with
        control :=
          { system.control with completionTail := wrapAdd 64 completionBase taskCount } }.move
        warp (nextTask { taskBase, taskCount, completionBase })
  | .loadTask batch =>
      system.move warp (.copy batch (system.taskSlots (slot shape batch.taskIndex)))
  | .copy batch task =>
      { system with copied := system.copied ++ [(batch.taskIndex, task)] }.move warp
        (.writeCompletion batch task)
  | .writeCompletion batch task =>
      let index := slot shape batch.completionIndex
      { system with
        completionSlots := Function.update system.completionSlots index
          { system.completionSlots index with
            completion := ⟨task.taskId, .success⟩
            batchStart := if batch.batchIndex = 0 then 1 else 0 } }.move warp (.publish batch)
  | .publish batch =>
      let index := slot shape batch.completionIndex
      { system with
        completionSlots := Function.update system.completionSlots index
          { system.completionSlots index with
            sequence := wrapAdd 64 batch.completionIndex 1 }
        published := system.published ++ [(batch.completionIndex, batch.taskIndex)] }.move warp
          (nextTask { batch with batchIndex := batch.batchIndex + 1 })
  | .stopped => system

inductive Action (shape : Shape)
  | call (call : Call)
  | host
  | warp (warp : Fin shape.copyWarps)

def step (system : System shape) : Action shape → System shape
  | .call call => system.call call
  | .host => system.hostStep
  | .warp warp => system.warpStep warp

end System

end Ugdr.Gpu.DirectAtomic
