import Ugdr.Foundation.Handshake
import Ugdr.Gpu.WarpSpecializedQueue

/-! # The pipeline kernel

`warp_specialized_pipeline_kernel`: an ingress warp hands the tasks over to copy warps, and an
egress warp collects their completions. Tasks and completions go through shared slots with
phase barriers. Every access to shared memory, every arrival and every wait that returns is a
step of its own. The lanes of the ingress and of the egress warp go in any order.
-/

namespace Ugdr.Gpu.Pipeline

open Machine Handshake WarpSpecialized

/-- The sizes for which `warp_specialized_pipeline_kernel` compiles, with any capacity that can
be masked. -/
structure Shape where
  capacity : Nat
  sharedQueueDepth : Nat
  copyWarps : Nat
  power : isPowerOfTwo capacity = true
  depthBounds : 2 ≤ sharedQueueDepth ∧ sharedQueueDepth ≤ 512
  depthPower : isPowerOfTwo sharedQueueDepth = true
  warpBounds : 0 < copyWarps ∧ copyWarps ≤ 30
  batchFits : (warpSpecializedMetaBatch + copyWarps - 1) / copyWarps ≤ sharedQueueDepth

/-- The kernel compiles for all sizes that `WarpSpecializedQueue::allocate_pipeline` accepts. -/
theorem Shape.exists_of_allocation {capacity copyWarps sharedQueueDepth : Nat}
    (allocates : (warpSpecializedPipelineAllocationSize capacity copyWarps
      sharedQueueDepth).isSome = true) :
    ∃ shape : Shape, shape.capacity = capacity ∧ shape.copyWarps = copyWarps ∧
      shape.sharedQueueDepth = sharedQueueDepth := by
  unfold warpSpecializedPipelineAllocationSize at allocates
  dsimp only at allocates
  by_cases warps : isSupportedPipelineCopyWarps copyWarps = false
  · rw [if_pos warps] at allocates
    cases allocates
  · rw [if_neg warps] at allocates
    split_ifs at allocates with refused
    · cases allocates
    · cases allocates
    · simp only [not_or, Bool.not_eq_false, not_lt] at refused
      obtain ⟨power, -, depth, -, fits, -⟩ := refused
      have warpBounds := of_decide_eq_true (Bool.not_eq_false _ ▸ warps)
      have depths := of_decide_eq_true depth
      have depthBounds : 2 ≤ sharedQueueDepth ∧ sharedQueueDepth ≤ 512 := by omega
      have depthPower : isPowerOfTwo sharedQueueDepth = true := by
        rcases depths with rfl | rfl | rfl | rfl <;> rfl
      exact ⟨⟨capacity, sharedQueueDepth, copyWarps, power, depthBounds, depthPower,
        ⟨by omega, warpBounds.2.1⟩, fits⟩, rfl, rfl, rfl⟩
    · cases allocates

/-- What a lane of the ingress warp does next. -/
inductive FillLane
  | wait
  | read
  | write (task : CopyTask)
  | arrive
  | done
  deriving DecidableEq, Repr

/-- What the ingress warp does next. It fills slots with tasks, or with the tasks of length
zero that stop the copy warps. -/
inductive IngressPhase
  | fetch (fetch : Queue.Fetch)
  | fill (stopping : Bool) (taskCount : Nat) (lanes : Nat → FillLane)
  | stopped

structure Ingress where
  taskHead : Nat := 0
  phase : IngressPhase := .fetch .loadTail

/-- What a copy warp does next. -/
inductive CopyPhase
  | waitReady
  | readTask
  | arriveConsumed (task : CopyTask)
  | copy (task : CopyTask)
  | waitConsumed (task : CopyTask)
  | writeCompletion (task : CopyTask)
  | arriveReady
  | stopped
  deriving DecidableEq, Repr

structure CopyWarp where
  localIndex : Nat := 0
  phase : CopyPhase := .waitReady
  deriving DecidableEq, Repr

/-- What a lane of the egress warp does next to collect a completion. -/
inductive CollectLane
  | wait
  | read
  | write (completion : CopyCompletion)
  | done
  deriving DecidableEq, Repr

/-- What the egress warp does next. The first lane stores the tail before it arrives. -/
inductive EgressPhase
  | fetch (fetch : Queue.Fetch)
  | collect (completionCount : Nat) (lanes : Nat → CollectLane)
  | release (completionCount : Nat) (stored : Bool) (arrived : Nat → Bool)
  | stopped

structure Egress where
  completionHead : Nat := 0
  phase : EgressPhase := .fetch .loadTail

/-- What the host shares with the device, the slots that the warps share, and for each warp
what it does next. -/
structure System (shape : Shape) where
  queue : Queue := {}
  sharedTasks : Nat → Cell CopyTask := fun _ => { value := ⟨0, 0, 0, 0⟩ }
  sharedCompletions : Nat → Cell CopyCompletion := fun _ => { value := ⟨0, .success⟩ }
  ingress : Ingress := {}
  copyWarps : Fin shape.copyWarps → CopyWarp := fun _ => {}
  egress : Egress := {}
  copied : List CopyRecord := []

namespace System

variable {shape : Shape}

/-! ## Slots -/

def slotIndex (shape : Shape) (owner localIndex : Nat) : Nat :=
  owner * shape.sharedQueueDepth + (localIndex &&& (shape.sharedQueueDepth - 1))

/-- `phase`. -/
def phase (shape : Shape) (localIndex : Nat) : Bool :=
  decide ((localIndex / shape.sharedQueueDepth) &&& 1 ≠ 0)

/-- The slot of an index that ingress or egress handle. -/
def indexSlot (shape : Shape) (index : Nat) : Nat :=
  slotIndex shape (index % shape.copyWarps) (index / shape.copyWarps)

def indexPhase (shape : Shape) (index : Nat) : Bool :=
  phase shape (index / shape.copyWarps)

/-! ## Ingress -/

/-- The batch is over when all of its lanes are done. -/
def filled (taskHead : Nat) (stopping : Bool) (taskCount : Nat) (lanes : Nat → FillLane) :
    Ingress :=
  if (List.range taskCount).all fun lane => lanes lane = .done then
    if stopping = true then
      { taskHead, phase := .stopped }
    else
      { taskHead := wrapAdd 64 taskHead taskCount }
  else
    { taskHead, phase := .fill stopping taskCount lanes }

/-- The next access of a lane of the ingress warp. -/
def ingressStep (system : System shape) (lane : Nat) : System shape :=
  let taskHead := system.ingress.taskHead
  match system.ingress.phase with
  | .fetch fetch =>
      if lane ≠ 0 then
        system
      else
        match system.queue.fetch taskHead fetch with
        | .again next => { system with ingress := { taskHead, phase := .fetch next } }
        | .batch taskCount =>
            { system with
              ingress := { taskHead, phase := .fill false taskCount fun _ => .wait } }
        | .stop =>
            { system with
              ingress := { taskHead, phase := .fill true shape.copyWarps fun _ => .wait } }
  | .fill stopping taskCount lanes =>
      if taskCount ≤ lane then
        system
      else
        let taskIndex := wrapAdd 64 taskHead lane
        let slot := indexSlot shape taskIndex
        match lanes lane with
        | .wait =>
            if passed (system.sharedTasks slot).consumed (!indexPhase shape taskIndex) then
              { system with
                ingress :=
                  { taskHead
                    phase := .fill stopping taskCount (Function.update lanes lane
                      (if stopping = true then .write ⟨0, 0, 0, 0⟩ else .read)) } }
            else
              system
        | .read =>
            let task := system.queue.taskSlots (Queue.slot shape.capacity taskIndex)
            { system with
              ingress :=
                { taskHead
                  phase := .fill stopping taskCount (Function.update lanes lane (.write task)) } }
        | .write task =>
            { system with
              sharedTasks := Function.update system.sharedTasks slot
                { system.sharedTasks slot with value := task }
              ingress :=
                { taskHead
                  phase := .fill stopping taskCount (Function.update lanes lane .arrive) } }
        | .arrive =>
            { system with
              sharedTasks := Function.update system.sharedTasks slot
                { system.sharedTasks slot with ready := (system.sharedTasks slot).ready + 1 }
              ingress := filled taskHead stopping taskCount (Function.update lanes lane .done) }
        | .done => system
  | .stopped => system

/-! ## Copy warps -/

def moveCopy (system : System shape) (warp : Fin shape.copyWarps) (phase : CopyPhase) :
    System shape :=
  { system with
    copyWarps := Function.update system.copyWarps warp { system.copyWarps warp with phase } }

/-- The next access of a copy warp, or its next copy. -/
def copyStep (system : System shape) (warp : Fin shape.copyWarps) : System shape :=
  let localIndex := (system.copyWarps warp).localIndex
  let slot := slotIndex shape warp localIndex
  match (system.copyWarps warp).phase with
  | .waitReady =>
      if passed (system.sharedTasks slot).ready (phase shape localIndex) then
        system.moveCopy warp .readTask
      else
        system
  | .readTask => system.moveCopy warp (.arriveConsumed (system.sharedTasks slot).value)
  | .arriveConsumed task =>
      { system with
        sharedTasks := Function.update system.sharedTasks slot
          { system.sharedTasks slot with
            consumed := (system.sharedTasks slot).consumed + 1 } }.moveCopy warp
        (if task.length = 0 then .stopped else .copy task)
  | .copy task =>
      { system with
        copied := system.copied ++
          [CopyRecord.mk warp (localIndex * shape.copyWarps + warp) task] }.moveCopy warp
        (.waitConsumed task)
  | .waitConsumed task =>
      if passed (system.sharedCompletions slot).consumed (!phase shape localIndex) then
        system.moveCopy warp (.writeCompletion task)
      else
        system
  | .writeCompletion task =>
      { system with
        sharedCompletions := Function.update system.sharedCompletions slot
          { system.sharedCompletions slot with
            value := ⟨task.taskId, .success⟩ } }.moveCopy warp .arriveReady
  | .arriveReady =>
      { system with
        sharedCompletions := Function.update system.sharedCompletions slot
          { system.sharedCompletions slot with
            ready := (system.sharedCompletions slot).ready + 1 }
        copyWarps := Function.update system.copyWarps warp
          { localIndex := wrapAdd 64 localIndex 1 } }
  | .stopped => system

/-! ## Egress -/

/-- The completions are published when all lanes of the batch have collected theirs. -/
def collected (completionHead completionCount : Nat) (lanes : Nat → CollectLane) : Egress :=
  { completionHead
    phase :=
      if (List.range completionCount).all fun lane => lanes lane = .done then
        .release completionCount false fun _ => false
      else
        .collect completionCount lanes }

/-- The batch is over when all of its lanes have arrived. -/
def released (completionHead completionCount : Nat) (stored : Bool) (arrived : Nat → Bool) :
    Egress :=
  if (List.range completionCount).all arrived then
    { completionHead := wrapAdd 64 completionHead completionCount }
  else
    { completionHead, phase := .release completionCount stored arrived }

/-- The next access of a lane of the egress warp. -/
def egressStep (system : System shape) (lane : Nat) : System shape :=
  let completionHead := system.egress.completionHead
  match system.egress.phase with
  | .fetch fetch =>
      if lane ≠ 0 then
        system
      else
        match system.queue.fetch completionHead fetch with
        | .again next => { system with egress := { completionHead, phase := .fetch next } }
        | .batch completionCount =>
            { system with
              egress := { completionHead, phase := .collect completionCount fun _ => .wait } }
        | .stop => { system with egress := { completionHead, phase := .stopped } }
  | .collect completionCount lanes =>
      if completionCount ≤ lane then
        system
      else
        let completionIndex := wrapAdd 64 completionHead lane
        let slot := indexSlot shape completionIndex
        match lanes lane with
        | .wait =>
            if passed (system.sharedCompletions slot).ready (indexPhase shape completionIndex) then
              { system with
                egress :=
                  { completionHead
                    phase := .collect completionCount (Function.update lanes lane .read) } }
            else
              system
        | .read =>
            { system with
              egress :=
                { completionHead
                  phase := .collect completionCount
                    (Function.update lanes lane (.write (system.sharedCompletions slot).value)) } }
        | .write completion =>
            { system with
              queue := system.queue.writeCompletion shape.capacity completionIndex completion
              egress :=
                collected completionHead completionCount (Function.update lanes lane .done) }
        | .done => system
  | .release completionCount stored arrived =>
      if completionCount ≤ lane then
        system
      else if lane = 0 ∧ stored = false then
        { system with
          queue :=
            system.queue.storeCompletionTail (wrapAdd 64 completionHead completionCount)
          egress := { completionHead, phase := .release completionCount true arrived } }
      else if arrived lane = true then
        system
      else
        let slot := indexSlot shape (wrapAdd 64 completionHead lane)
        { system with
          sharedCompletions := Function.update system.sharedCompletions slot
            { system.sharedCompletions slot with
              consumed := (system.sharedCompletions slot).consumed + 1 }
          egress :=
            released completionHead completionCount stored (Function.update arrived lane true) }
  | .stopped => system

/-! ## Steps -/

inductive Action (shape : Shape)
  | call (call : Queue.Call)
  | host
  | ingress (lane : Nat)
  | copy (warp : Fin shape.copyWarps)
  | egress (lane : Nat)

def step (system : System shape) : Action shape → System shape
  | .call call => { system with queue := system.queue.call shape.capacity call }
  | .host => { system with queue := system.queue.hostStep shape.capacity }
  | .ingress lane => system.ingressStep lane
  | .copy warp => system.copyStep warp
  | .egress lane => system.egressStep lane

end System

end Ugdr.Gpu.Pipeline
