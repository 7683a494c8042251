import Ugdr.Errno
import Ugdr.Foundation.Machine
import Ugdr.Worker.Datagram

/-! # Host side of the copy backend

`PersistentCudaCopyHost`: the table of task contexts, the batch of tasks that waits to
be published to the runtime queue, and the ring of requests that were completed
without it. The runtime, the visibility gate and the clock are a `Device`, whose
every answer is arbitrary.
-/

namespace Ugdr.Gpu

open Ugdr.Machine
open Ugdr.Worker (BackendRequest BackendCompletion DatagramResult)

/-! ## Tasks -/

inductive CopyTaskResult
  | success
  | invalidTask
  | copyFailed
  deriving DecidableEq, Repr

/-- What the worker is told of a result. -/
def CopyTaskResult.datagramResult : CopyTaskResult → DatagramResult
  | .success => .success
  | .invalidTask => .backendError
  | .copyFailed => .backendError

structure CopyTask where
  taskId : Nat
  targetAddress : Nat
  length : Nat
  relativeOffset : Nat
  deriving DecidableEq, Repr

structure CopyCompletion where
  taskId : Nat
  result : CopyTaskResult
  deriving DecidableEq, Repr

structure Config where
  deviceOrdinal : Nat := 0
  stageBufferBase : Nat := 0
  stageBufferBytes : Nat := 0
  queueCapacity : Nat := 1024
  hostBatch : Nat := 64
  maxBatchDelay : Nat := 0
  deriving DecidableEq, Repr

def maxPayloadBytes : Nat := 8192

def maxStageBufferBytes : Nat := 2 ^ 32

def hostBatchSize : Nat := 64

/-- `sizeof(TaskContextSlot)`. -/
def contextSlotBytes : Nat := 32

def isPowerOfTwo (value : Nat) : Bool :=
  value ≠ 0 ∧ value &&& (value - 1) = 0

def makeCopyTask (config : Config) (request : BackendRequest) (taskId : Nat) :
    Except Errno CopyTask :=
  if request.sourceDaemonAddress < config.stageBufferBase ∨ request.targetDaemonAddress = 0 ∨
      request.payloadLength = 0 ∨ maxPayloadBytes < request.payloadLength then
    .error .einval
  else
    let relativeOffset := request.sourceDaemonAddress - config.stageBufferBase
    if config.stageBufferBytes ≤ relativeOffset ∨
        config.stageBufferBytes - relativeOffset < request.payloadLength ∨
        2 ^ 64 - 1 - request.payloadLength < request.targetDaemonAddress ∨
        2 ^ 32 - 1 < relativeOffset then
      .error .einval
    else
      .ok
        { taskId
          targetAddress := request.targetDaemonAddress
          length := request.payloadLength
          relativeOffset }

def validateConfig (config : Config) : Status :=
  if config.stageBufferBase = 0 ∨ config.stageBufferBytes = 0 ∨
      maxStageBufferBytes < config.stageBufferBytes ∨
      2 ^ 64 - 1 - config.stageBufferBytes < config.stageBufferBase then
    some .einval
  else if isPowerOfTwo config.queueCapacity = false ∨ config.queueCapacity < hostBatchSize ∨
      config.hostBatch ≠ hostBatchSize ∨ config.maxBatchDelay = 0 then
    some .einval
  else
    none

/-! ## Device -/

/-- The runtime queue, the visibility gate, the clock and the allocator. Each call may
answer anything and change the device's own state. -/
structure Device (σ : Type) where
  initializeDevice : Nat → σ → Status × σ
  initializeGate : Nat → σ → Status × σ
  allocate : σ → Bool × σ
  start : Config → σ → Status × σ
  submitBatch : List CopyTask → σ → (Status × Nat) × σ
  poll : σ → (Status × CopyCompletion) × σ
  requestStop : σ → Status × σ
  wait : σ → Status × σ
  resetRuntime : σ → Status × σ
  flushToOwner : σ → Status × σ
  resetGate : σ → Status × σ
  now : σ → Nat × σ

/-! ## Host state -/

inductive SlotState
  | free
  | pending
  | submitted
  | localError
  deriving DecidableEq, Repr

inductive HostPublishFailure
  | none
  | visibility
  | queue
  deriving DecidableEq, Repr

structure TaskContextSlot where
  taskId : Nat := 0
  parentRequestId : Nat := 0
  payloadIndex : Nat := 0
  state : SlotState := .free
  result : DatagramResult := .success
  deriving DecidableEq, Repr

/-- Whom a context belongs to. -/
structure Ticket where
  taskId : Nat
  parentRequestId : Nat
  payloadIndex : Nat
  deriving DecidableEq, Repr

def TaskContextSlot.ticket (context : TaskContextSlot) : Ticket :=
  { taskId := context.taskId
    parentRequestId := context.parentRequestId
    payloadIndex := context.payloadIndex }

def TaskContextSlot.completion (context : TaskContextSlot) (result : DatagramResult) :
    BackendCompletion :=
  { parentRequestId := context.parentRequestId
    payloadIndex := context.payloadIndex
    result }

structure Host where
  config : Config := {}
  /-- `contexts_ != nullptr`. -/
  initialized : Bool := false
  contexts : Nat → TaskContextSlot := fun _ => {}
  localTaskIds : Nat → Nat := fun _ => 0
  /-- The first `pending_count_` entries of `pending_tasks_`. -/
  pending : List CopyTask := []
  capacityMask : Nat := 0
  outstanding : Nat := 0
  nextTaskId : Nat := 1
  localHead : Nat := 0
  localTail : Nat := 0
  firstPending : Nat := 0
  publishBlocked : Bool := false
  pendingFlushed : Bool := false
  lastPublishFailure : HostPublishFailure := .none

/-- What is observed of a run of the backend. -/
inductive Event
  /-- A request became a task, written to `pending_tasks_[index]`. -/
  | queued (task : CopyTask) (request : BackendRequest) (index : Nat)
  /-- A request that makes no task was taken to be completed locally. -/
  | rejected (taskId : Nat) (request : BackendRequest)
  | flushed (status : Status)
  | offered (tasks : List CopyTask) (status : Status) (count : Nat)
  /-- A task that the runtime has not taken was completed locally. -/
  | abandoned (ticket : Ticket)
  /-- A task that the runtime has taken was completed locally. -/
  | revoked (ticket : Ticket)
  | polled (status : Status) (completion : CopyCompletion)
  | delivered (taskId : Nat) (fromRuntime : Bool) (completion : BackendCompletion)
  | stopRequested (status : Status)
  | started
  | draining
  | stopped
  deriving DecidableEq, Repr

/-- The host with the device it uses. `trace` records what happened and is read by no
function. -/
structure System (σ : Type) where
  device : σ
  host : Host := {}
  trace : List Event := []

namespace Host

/-- The slot of a task id. -/
def slot (host : Host) (taskId : Nat) : Nat :=
  taskId &&& host.capacityMask

/-- Append a task id to the ring of local completions. -/
def pushLocal (host : Host) (taskId : Nat) : Host :=
  { host with
    localTaskIds := Function.update host.localTaskIds (host.slot host.localTail) taskId
    localTail := wrapAdd 64 host.localTail 1 }

/-- The end of `publish_pending`: the first `count` pending tasks are gone. -/
def advance (host : Host) (count : Nat) (contexts : Nat → TaskContextSlot) : Host :=
  let pending := host.pending.drop count
  if pending ≠ [] then
    { host with contexts, pending, publishBlocked := true }
  else
    { host with
      contexts
      pending
      firstPending := 0
      publishBlocked := false
      pendingFlushed := false }

end Host

variable {σ : Type}

/-! ## Publishing -/

/-- The loop of `publish_pending` over the tasks that the runtime took. It stops at a
context that does not belong to its task. -/
def markSubmitted (mask : Nat) :
    List CopyTask → (Nat → TaskContextSlot) → Bool × (Nat → TaskContextSlot)
  | [], contexts => (true, contexts)
  | task :: tasks, contexts =>
      let context := contexts (task.taskId &&& mask)
      if context.state ≠ .pending ∨ context.taskId ≠ task.taskId then
        (false, contexts)
      else
        markSubmitted mask tasks
          (Function.update contexts (task.taskId &&& mask) { context with state := .submitted })

namespace System

/-- The first half of `publish_pending`. -/
def flushPending (device : Device σ) (system : System σ) : Status × System σ :=
  if system.host.pendingFlushed then
    (none, system)
  else
    let answer := device.flushToOwner system.device
    let flushed : System σ :=
      { system with device := answer.2, trace := system.trace ++ [.flushed answer.1] }
    match answer.1 with
    | some status =>
        (some status,
          { flushed with
            host :=
              { system.host with publishBlocked := true, lastPublishFailure := .visibility } })
    | none => (none, { flushed with host := { system.host with pendingFlushed := true } })

/-- The second half of `publish_pending`. -/
def submitPending (device : Device σ) (system : System σ) : Status × System σ :=
  let host := system.host
  let answer := device.submitBatch host.pending system.device
  let count := answer.1.2
  let offered : System σ :=
    { system with
      device := answer.2
      trace := system.trace ++ [.offered host.pending answer.1.1 count] }
  if answer.1.1 = some .eagain then
    (none, { offered with host := { host with publishBlocked := true } })
  else
    match answer.1.1 with
    | some status =>
        (some status, { offered with host := { host with lastPublishFailure := .queue } })
    | none =>
        if count = 0 ∨ host.pending.length < count then
          (some .eproto, { offered with host := { host with lastPublishFailure := .queue } })
        else
          let marked := markSubmitted host.capacityMask (host.pending.take count) host.contexts
          if marked.1 = false then
            (some .eproto,
              { offered with
                host := { host with contexts := marked.2, lastPublishFailure := .queue } })
          else
            (none, { offered with host := host.advance count marked.2 })

def publishPending (device : Device σ) (system : System σ) : Status × System σ :=
  let system := { system with host := { system.host with lastPublishFailure := .none } }
  match system.flushPending device with
  | (some status, system) => (some status, system)
  | (none, system) => system.submitPending device

def progressHostBatch (device : Device σ) (now : Nat) (system : System σ) :
    Status × System σ :=
  if system.host.initialized = false then
    (some .einval, system)
  else if system.host.pending.length = 0 then
    (none, system)
  else if system.host.publishBlocked = false ∧ system.host.firstPending ≤ now ∧
      now - system.host.firstPending < system.host.config.maxBatchDelay then
    (none, system)
  else
    system.publishPending device

def publishPendingNow (device : Device σ) (system : System σ) : Status × System σ :=
  if system.host.initialized = false then
    (some .einval, system)
  else if system.host.pending.length = 0 then
    (none, system)
  else
    system.publishPending device

/-! ## Submitting -/

/-- Take a request as a pending task. -/
def enqueue (request : BackendRequest) (task : CopyTask) (now : Nat) (system : System σ) :
    System σ :=
  let host := system.host
  let taskId := host.nextTaskId
  let first := host.pending.length = 0
  { system with
    host :=
      { host with
        contexts :=
          Function.update host.contexts (host.slot taskId)
            { taskId
              parentRequestId := request.parentRequestId
              payloadIndex := request.payloadIndex
              state := .pending
              result := .success }
        pending := host.pending ++ [task]
        firstPending := if first then now else host.firstPending
        pendingFlushed := if first then false else host.pendingFlushed
        outstanding := host.outstanding + 1
        nextTaskId := wrapAdd 64 taskId 1 }
    trace := system.trace ++ [.queued task request host.pending.length] }

/-- Take a request as a local completion. -/
def completeLocally (request : BackendRequest) (result : DatagramResult) (system : System σ) :
    System σ :=
  let host := system.host
  let taskId := host.nextTaskId
  let stored :=
    { host with
      contexts :=
        Function.update host.contexts (host.slot taskId)
          { taskId
            parentRequestId := request.parentRequestId
            payloadIndex := request.payloadIndex
            state := .localError
            result } }
  { system with
    host :=
      { stored.pushLocal taskId with
        outstanding := host.outstanding + 1
        nextTaskId := wrapAdd 64 taskId 1 }
    trace := system.trace ++ [.rejected taskId request] }

/-- `try_submit`: the status and `*accepted`. -/
def trySubmit (device : Device σ) (request : BackendRequest) (now : Nat)
    (system : System σ) : (Status × Bool) × System σ :=
  let host := system.host
  if host.initialized = false then
    ((some .einval, false), system)
  else if host.config.queueCapacity ≤ host.outstanding ∨
      (host.publishBlocked ∧ host.pending.length ≠ 0) then
    ((none, false), system)
  else
    let taskId := host.nextTaskId
    if (host.contexts (host.slot taskId)).state ≠ .free then
      ((some .eproto, false), system)
    else
      match makeCopyTask host.config request taskId with
      | .error status => ((some status, false), system)
      | .ok task =>
          let queued := system.enqueue request task now
          if queued.host.pending.length = host.config.hostBatch then
            let published := queued.publishPending device
            ((published.1, true), published.2)
          else
            ((none, true), queued)

/-- `try_complete_locally`: the status and `*accepted`. -/
def tryCompleteLocally (request : BackendRequest) (result : DatagramResult)
    (system : System σ) : (Status × Bool) × System σ :=
  let host := system.host
  if host.initialized = false then
    ((some .einval, false), system)
  else if host.config.queueCapacity ≤ host.outstanding then
    ((none, false), system)
  else
    let taskId := host.nextTaskId
    if (host.contexts (host.slot taskId)).state ≠ .free then
      ((some .eproto, false),
        { system with host := { host with lastPublishFailure := .queue } })
    else
      ((none, true), system.completeLocally request result)

/-! ## Completing -/

/-- Hand out the first local completion. -/
def deliverLocal (taskId : Nat) (system : System σ) : System σ :=
  let host := system.host
  let context := host.contexts (host.slot taskId)
  { system with
    host :=
      { host with
        contexts := Function.update host.contexts (host.slot taskId) {}
        localHead := wrapAdd 64 host.localHead 1
        outstanding := host.outstanding - 1 }
    trace := system.trace ++ [.delivered taskId false (context.completion context.result)] }

/-- Hand out a completion of the runtime. -/
def deliverPolled (polled : CopyCompletion) (system : System σ) : System σ :=
  let host := system.host
  let context := host.contexts (host.slot polled.taskId)
  { system with
    host :=
      { host with
        contexts := Function.update host.contexts (host.slot polled.taskId) {}
        outstanding := host.outstanding - 1 }
    trace :=
      system.trace ++
        [.delivered polled.taskId true (context.completion polled.result.datagramResult)] }

/-- The second half of `try_pop_completion`. -/
def readCompletion (device : Device σ) (system : System σ) :
    (Status × Option BackendCompletion) × System σ :=
  let host := system.host
  if host.localHead < host.localTail then
    let taskId := host.localTaskIds (host.slot host.localHead)
    let context := host.contexts (host.slot taskId)
    if context.state ≠ .localError ∨ context.taskId ≠ taskId ∨ host.outstanding = 0 then
      ((some .eproto, none), { system with host := { host with lastPublishFailure := .queue } })
    else
      ((none, some (context.completion context.result)), system.deliverLocal taskId)
  else
    let answer := device.poll system.device
    let polled := answer.1.2
    let answered : System σ :=
      { system with device := answer.2, trace := system.trace ++ [.polled answer.1.1 polled] }
    if answer.1.1 = some .eagain then
      ((none, none), answered)
    else
      match answer.1.1 with
      | some status =>
          ((some status, none),
            { answered with host := { host with lastPublishFailure := .queue } })
      | none =>
          let context := host.contexts (host.slot polled.taskId)
          if context.state ≠ .submitted ∨ context.taskId ≠ polled.taskId ∨
              host.outstanding = 0 then
            ((some .eproto, none),
              { answered with host := { host with lastPublishFailure := .queue } })
          else
            ((none, some (context.completion polled.result.datagramResult)),
              answered.deliverPolled polled)

/-- `try_pop_completion`: the status, and the completion if `*completed`. -/
def tryPopCompletion (device : Device σ) (now : Nat) (system : System σ) :
    (Status × Option BackendCompletion) × System σ :=
  if system.host.initialized = false then
    ((some .einval, none), system)
  else
    match system.progressHostBatch device now with
    | (some status, system) => ((some status, none), system)
    | (none, system) => system.readCompletion device

/-! ## Failing -/

/-- The loop of `fail_pending`. It stops at a context that does not belong to its task. -/
def failTasks (result : DatagramResult) : List CopyTask → System σ → Bool × System σ
  | [], system => (true, system)
  | task :: tasks, system =>
      let host := system.host
      let context := host.contexts (host.slot task.taskId)
      if context.state ≠ .pending ∨ context.taskId ≠ task.taskId then
        (false, system)
      else
        let stored :=
          { host with
            contexts :=
              Function.update host.contexts (host.slot task.taskId)
                { context with state := .localError, result } }
        failTasks result tasks
          { system with
            host := stored.pushLocal task.taskId
            trace := system.trace ++ [.abandoned context.ticket] }

def failPending (result : DatagramResult) (system : System σ) : Status × System σ :=
  if system.host.initialized = false then
    (some .einval, system)
  else
    match failTasks result system.host.pending system with
    | (false, system) =>
        (some .eproto, { system with host := { system.host with lastPublishFailure := .queue } })
    | (true, system) =>
        (none,
          { system with
            host :=
              { system.host with
                pending := []
                firstPending := 0
                publishBlocked := false
                pendingFlushed := false
                lastPublishFailure := .none } })

/-- The body of the loop of `fail_all` over the table. -/
def failSlot (result : DatagramResult) (system : System σ) (index : Nat) : System σ :=
  let host := system.host
  let context := host.contexts index
  if context.state ≠ .submitted then
    system
  else
    let stored :=
      { host with
        contexts :=
          Function.update host.contexts index { context with state := .localError, result } }
    { system with
      host := stored.pushLocal context.taskId
      trace := system.trace ++ [.revoked context.ticket] }

def failAll (result : DatagramResult) (system : System σ) : Status × System σ :=
  match system.failPending result with
  | (some status, system) => (some status, system)
  | (none, system) =>
      let failed := (List.range system.host.config.queueCapacity).foldl (failSlot result) system
      (none, { failed with host := { failed.host with lastPublishFailure := .none } })

/-! ## Set-up -/

def initializeHost (device : Device σ) (config : Config) (system : System σ) :
    Status × System σ :=
  if system.host.initialized ∨ validateConfig config ≠ none ∨
      (2 ^ 64 - 1) / contextSlotBytes < config.queueCapacity then
    (some .einval, system)
  else
    let answer := device.allocate system.device
    if answer.1 = false then
      (some .enomem, { system with device := answer.2 })
    else
      (none,
        { system with
          device := answer.2
          host :=
            { system.host with
              config
              initialized := true
              contexts := fun _ => {}
              localTaskIds := fun _ => 0
              capacityMask := config.queueCapacity - 1 } })

def resetHost (system : System σ) : Status × System σ :=
  let host := system.host
  if host.initialized = false then
    (none, system)
  else if host.outstanding ≠ 0 ∨ host.pending.length ≠ 0 ∨ host.localHead ≠ host.localTail then
    (some .ebusy, system)
  else
    (none,
      { system with
        host :=
          { host with
            config := {}
            initialized := false
            contexts := fun _ => {}
            localTaskIds := fun _ => 0
            capacityMask := 0
            nextTaskId := 1
            localHead := 0
            localTail := 0
            firstPending := 0
            publishBlocked := false
            pendingFlushed := false
            lastPublishFailure := .none } })

end System

end Ugdr.Gpu
