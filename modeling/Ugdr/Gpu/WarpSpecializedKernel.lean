import Ugdr.Foundation.SequencedSlots
import Ugdr.Gpu.WarpSpecializedQueue

/-! # The warp-specialised kernel

`warp_specialized_kernel`: an ingress warp hands the tasks over in shared slots, copy warps claim
them a few at a time, and an egress warp collects their completions. The slots are passed on with
sequence numbers. Every access to shared memory is a step of its own. The lanes of a wave go in
any order, and so do those that load their task for a later wave.
-/

namespace Ugdr.Gpu.WarpSpecializedKernel

open Machine Sequenced WarpSpecialized

/-- The sizes for which `warp_specialized_kernel` compiles, with any capacity that can be masked
and any number of copy warps. -/
structure Shape where
  capacity : Nat
  sharedQueueDepth : Nat
  copyClaimBatch : Nat
  copyWarps : Nat
  power : isPowerOfTwo capacity = true
  depthBounds : 2 ≤ sharedQueueDepth ∧ sharedQueueDepth ≤ 16
  depthPower : isPowerOfTwo sharedQueueDepth = true
  claimBounds : 0 < copyClaimBatch ∧ copyClaimBatch ≤ sharedQueueDepth

/-- What a lane of the ingress warp does next. -/
inductive LoadLane
  | read
  | wait (task : CopyTask)
  | write (task : CopyTask)
  | store
  | done
  deriving DecidableEq, Repr

/-- What the ingress warp does next. -/
inductive IngressPhase
  | fetch (fetch : Queue.Fetch)
  | wave (taskCount waveBase : Nat) (lanes : Nat → LoadLane)
  | publish (taskCount waveBase : Nat) (lanes : Nat → LoadLane)
  | storeDone
  | stopped

structure Ingress where
  taskHead : Nat := 0
  phase : IngressPhase := .fetch .loadTail

/-- What a copy warp does next. -/
inductive CopyPhase
  | loadClaim
  | loadPublish (taskClaim : Nat)
  | loadDone (taskClaim taskPublish : Nat)
  | claim (taskClaim taskCount : Nat)
  | waitTask
  | readTask
  | copy (task : CopyTask)
  | storeTask (task : CopyTask)
  | waitCompletion (task : CopyTask)
  | writeCompletion (task : CopyTask)
  | storeCompletion
  | stopped
  deriving DecidableEq, Repr

structure CopyWarp where
  taskBase : Nat := 0
  taskCount : Nat := 0
  batchIndex : Nat := 0
  phase : CopyPhase := .loadClaim
  deriving DecidableEq, Repr

/-- What a lane of the egress warp has of its completion. -/
inductive CollectLane
  | wait
  | read
  | hold (completion : CopyCompletion)
  | freed (completion : CopyCompletion)
  | written
  deriving DecidableEq, Repr

def CollectLane.isHold : CollectLane → Bool
  | .hold _ => true
  | _ => false

def CollectLane.isFreed : CollectLane → Bool
  | .freed _ => true
  | _ => false

/-- What the egress warp does next. -/
inductive EgressPhase
  | fetch (fetch : Queue.Fetch)
  | collect (completionCount waveBase : Nat) (lanes : Nat → CollectLane)
  | free (completionCount waveBase : Nat) (lanes : Nat → CollectLane)
  | write (completionCount : Nat) (lanes : Nat → CollectLane)
  | storeTail (completionCount : Nat)
  | stopped

structure Egress where
  completionHead : Nat := 0
  phase : EgressPhase := .fetch .loadTail

/-- `WarpSpecializedSharedControl`. -/
structure SharedControl where
  taskPublish : Nat := 0
  taskClaim : Nat := 0
  ingressDone : Nat := 0
  deriving DecidableEq, Repr

/-- What the host shares with the device, what the warps share, and for each warp what it does
next. -/
structure System (shape : Shape) where
  queue : Queue := {}
  control : SharedControl := {}
  sharedTasks : Nat → Slot CopyTask := fun place => ⟨⟨0, 0, 0, 0⟩, place⟩
  sharedCompletions : Nat → Slot CopyCompletion := fun place => ⟨⟨0, .success⟩, place⟩
  ingress : Ingress := {}
  copyWarps : Fin shape.copyWarps → CopyWarp := fun _ => {}
  egress : Egress := {}
  copied : List CopyRecord := []

namespace System

variable {shape : Shape}

/-- `index & kSharedQueueMask`. -/
def sharedSlot (shape : Shape) (index : Nat) : Nat :=
  index &&& (shape.sharedQueueDepth - 1)

/-- `wave_end`. -/
def waveEnd (shape : Shape) (count waveBase : Nat) : Nat :=
  if waveBase + shape.sharedQueueDepth < count then waveBase + shape.sharedQueueDepth else count

/-! ## Ingress -/

/-- The wave is over when its lanes have stored their tasks and the others have loaded theirs. -/
def loaded (shape : Shape) (taskHead taskCount waveBase : Nat) (lanes : Nat → LoadLane) :
    Ingress :=
  { taskHead
    phase :=
      if (List.range taskCount).all fun lane =>
          if lane < waveEnd shape taskCount waveBase then lanes lane = .done
          else lanes lane ≠ .read then
        .publish taskCount waveBase lanes
      else
        .wave taskCount waveBase lanes }

/-- The next access of a lane of the ingress warp. -/
def ingressStep (system : System shape) (lane : Nat) : System shape :=
  let taskHead := system.ingress.taskHead
  match system.ingress.phase with
  | .fetch fetch =>
      if lane ≠ 0 then
        system
      else
        match system.queue.fetch taskHead fetch with
        | .again next => { system with ingress := { taskHead, phase := .fetch next } }
        | .batch taskCount =>
            { system with ingress := { taskHead, phase := .wave taskCount 0 fun _ => .read } }
        | .stop => { system with ingress := { taskHead, phase := .storeDone } }
  | .wave taskCount waveBase lanes =>
      if taskCount ≤ lane then
        system
      else
        let taskIndex := wrapAdd 64 taskHead lane
        let slot := sharedSlot shape taskIndex
        match lanes lane with
        | .read =>
            let task := system.queue.taskSlots (Queue.slot shape.capacity taskIndex)
            { system with
              ingress :=
                loaded shape taskHead taskCount waveBase
                  (Function.update lanes lane (.wait task)) }
        | .wait task =>
            if lane < waveEnd shape taskCount waveBase ∧
                (system.sharedTasks slot).sequence = taskIndex then
              { system with
                ingress :=
                  { taskHead
                    phase := .wave taskCount waveBase
                      (Function.update lanes lane (.write task)) } }
            else
              system
        | .write task =>
            { system with
              sharedTasks := Function.update system.sharedTasks slot
                { system.sharedTasks slot with value := task }
              ingress :=
                { taskHead
                  phase := .wave taskCount waveBase (Function.update lanes lane .store) } }
        | .store =>
            { system with
              sharedTasks := Function.update system.sharedTasks slot
                { system.sharedTasks slot with sequence := wrapAdd 64 taskIndex 1 }
              ingress :=
                loaded shape taskHead taskCount waveBase (Function.update lanes lane .done) }
        | .done => system
  | .publish taskCount waveBase lanes =>
      if lane ≠ 0 then
        system
      else
        { system with
          control :=
            { system.control with
              taskPublish := wrapAdd 64 taskHead (waveEnd shape taskCount waveBase) }
          ingress :=
            if taskCount ≤ waveBase + shape.sharedQueueDepth then
              { taskHead := wrapAdd 64 taskHead taskCount }
            else
              { taskHead, phase := .wave taskCount (waveBase + shape.sharedQueueDepth) lanes } }
  | .storeDone =>
      if lane ≠ 0 then
        system
      else
        { system with
          control := { system.control with ingressDone := 1 }
          ingress := { taskHead, phase := .stopped } }
  | .stopped => system

/-! ## Copy warps -/

/-- A copy warp goes on without touching anything that is shared. -/
def moveCopy (system : System shape) (warp : Fin shape.copyWarps) (phase : CopyPhase) :
    System shape :=
  { system with
    copyWarps := Function.update system.copyWarps warp { system.copyWarps warp with phase } }

/-- The next access of a copy warp, or its next copy. -/
def copyStep (system : System shape) (warp : Fin shape.copyWarps) : System shape :=
  let taskBase := (system.copyWarps warp).taskBase
  let taskCount := (system.copyWarps warp).taskCount
  let batchIndex := (system.copyWarps warp).batchIndex
  let taskIndex := wrapAdd 64 taskBase batchIndex
  let slot := sharedSlot shape taskIndex
  match (system.copyWarps warp).phase with
  | .loadClaim => system.moveCopy warp (.loadPublish system.control.taskClaim)
  | .loadPublish taskClaim =>
      let taskPublish := system.control.taskPublish
      if taskClaim < taskPublish then
        let available := wrapSub 64 taskPublish taskClaim
        system.moveCopy warp (.claim taskClaim
          (if available < shape.copyClaimBatch then available else shape.copyClaimBatch))
      else
        system.moveCopy warp (.loadDone taskClaim taskPublish)
  | .loadDone taskClaim taskPublish =>
      if system.control.ingressDone ≠ 0 ∧ taskPublish ≤ taskClaim then
        system.moveCopy warp .stopped
      else
        system.moveCopy warp .loadClaim
  | .claim taskClaim count =>
      if system.control.taskClaim = taskClaim then
        { system with
          control := { system.control with taskClaim := wrapAdd 64 taskClaim count }
          copyWarps := Function.update system.copyWarps warp
            { taskBase := taskClaim, taskCount := count, batchIndex := 0, phase := .waitTask } }
      else
        system.moveCopy warp .loadClaim
  | .waitTask =>
      if (system.sharedTasks slot).sequence = wrapAdd 64 taskIndex 1 then
        system.moveCopy warp .readTask
      else
        system
  | .readTask => system.moveCopy warp (.copy (system.sharedTasks slot).value)
  | .copy task =>
      { system with
        copied := system.copied ++ [CopyRecord.mk warp taskIndex task] }.moveCopy warp
          (.storeTask task)
  | .storeTask task =>
      { system with
        sharedTasks := Function.update system.sharedTasks slot
          { system.sharedTasks slot with
            sequence := wrapAdd 64 taskIndex shape.sharedQueueDepth } }.moveCopy warp
        (.waitCompletion task)
  | .waitCompletion task =>
      if (system.sharedCompletions slot).sequence = taskIndex then
        system.moveCopy warp (.writeCompletion task)
      else
        system
  | .writeCompletion task =>
      { system with
        sharedCompletions := Function.update system.sharedCompletions slot
          { system.sharedCompletions slot with
            value := ⟨task.taskId, .success⟩ } }.moveCopy warp .storeCompletion
  | .storeCompletion =>
      { system with
        sharedCompletions := Function.update system.sharedCompletions slot
          { system.sharedCompletions slot with sequence := wrapAdd 64 taskIndex 1 }
        copyWarps := Function.update system.copyWarps warp
          { taskBase
            taskCount
            batchIndex := batchIndex + 1
            phase := if batchIndex + 1 < taskCount then .waitTask else .loadClaim } }
  | .stopped => system

/-! ## Egress -/

/-- The lanes of a wave give their slots back when all of them have their completions. -/
def collected (shape : Shape) (completionHead completionCount waveBase : Nat)
    (lanes : Nat → CollectLane) : Egress :=
  { completionHead
    phase :=
      if (List.range (waveEnd shape completionCount waveBase)).all fun lane =>
          lane < waveBase ∨ (lanes lane).isHold = true then
        .free completionCount waveBase lanes
      else
        .collect completionCount waveBase lanes }

/-- The next wave begins when all slots of a wave are given back. -/
def freed (shape : Shape) (completionHead completionCount waveBase : Nat)
    (lanes : Nat → CollectLane) : Egress :=
  { completionHead
    phase :=
      if (List.range (waveEnd shape completionCount waveBase)).all fun lane =>
          lane < waveBase ∨ (lanes lane).isFreed = true then
        if completionCount ≤ waveBase + shape.sharedQueueDepth then
          .write completionCount lanes
        else
          .collect completionCount (waveBase + shape.sharedQueueDepth) lanes
      else
        .free completionCount waveBase lanes }

/-- The tail is stored when all lanes have written their completions. -/
def written (completionHead completionCount : Nat) (lanes : Nat → CollectLane) : Egress :=
  { completionHead
    phase :=
      if (List.range completionCount).all fun lane => lanes lane = .written then
        .storeTail completionCount
      else
        .write completionCount lanes }

/-- The next access of a lane of the egress warp. -/
def egressStep (system : System shape) (lane : Nat) : System shape :=
  let completionHead := system.egress.completionHead
  let completionIndex := wrapAdd 64 completionHead lane
  let slot := sharedSlot shape completionIndex
  match system.egress.phase with
  | .fetch fetch =>
      if lane ≠ 0 then
        system
      else
        match system.queue.fetch completionHead fetch with
        | .again next => { system with egress := { completionHead, phase := .fetch next } }
        | .batch completionCount =>
            { system with
              egress := { completionHead, phase := .collect completionCount 0 fun _ => .wait } }
        | .stop => { system with egress := { completionHead, phase := .stopped } }
  | .collect completionCount waveBase lanes =>
      if lane < waveBase ∨ waveEnd shape completionCount waveBase ≤ lane then
        system
      else
        match lanes lane with
        | .wait =>
            if (system.sharedCompletions slot).sequence = wrapAdd 64 completionIndex 1 then
              { system with
                egress :=
                  { completionHead
                    phase := .collect completionCount waveBase
                      (Function.update lanes lane .read) } }
            else
              system
        | .read =>
            { system with
              egress :=
                collected shape completionHead completionCount waveBase
                  (Function.update lanes lane (.hold (system.sharedCompletions slot).value)) }
        | _ => system
  | .free completionCount waveBase lanes =>
      if lane < waveBase ∨ waveEnd shape completionCount waveBase ≤ lane then
        system
      else
        match lanes lane with
        | .hold completion =>
            { system with
              sharedCompletions := Function.update system.sharedCompletions slot
                { system.sharedCompletions slot with
                  sequence := wrapAdd 64 completionIndex shape.sharedQueueDepth }
              egress :=
                freed shape completionHead completionCount waveBase
                  (Function.update lanes lane (.freed completion)) }
        | _ => system
  | .write completionCount lanes =>
      if completionCount ≤ lane then
        system
      else
        match lanes lane with
        | .freed completion =>
            { system with
              queue := system.queue.writeCompletion shape.capacity completionIndex completion
              egress :=
                written completionHead completionCount (Function.update lanes lane .written) }
        | _ => system
  | .storeTail completionCount =>
      if lane ≠ 0 then
        system
      else
        { system with
          queue :=
            system.queue.storeCompletionTail (wrapAdd 64 completionHead completionCount)
          egress := { completionHead := wrapAdd 64 completionHead completionCount } }
  | .stopped => system

/-! ## Steps -/

inductive Action (shape : Shape)
  | call (call : Queue.Call)
  | host
  | ingress (lane : Nat)
  | copy (warp : Fin shape.copyWarps)
  | egress (lane : Nat)

def step (system : System shape) : Action shape → System shape
  | .call call => { system with queue := system.queue.call shape.capacity call }
  | .host => { system with queue := system.queue.hostStep shape.capacity }
  | .ingress lane => system.ingressStep lane
  | .copy warp => system.copyStep warp
  | .egress lane => system.egressStep lane

end System

end Ugdr.Gpu.WarpSpecializedKernel
