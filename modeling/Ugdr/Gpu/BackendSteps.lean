import Ugdr.Gpu.CopyBackend
import Ugdr.Gpu.HostOperations
import Ugdr.Gpu.Publication

/-! # Steps of the backend

Every call of the backend is a sequence of a few kinds of steps. A step says what the
device has answered and what becomes of the host, and it makes one entry in the ledger.
-/

namespace Ugdr.Gpu

open Ugdr.Machine Ugdr.SlotTable
open Ugdr.Worker (BackendRequest BackendCompletion DatagramResult)

variable {σ : Type}

namespace System

/-- The device has answered and the event is noted. -/
def answered (system : System σ) (device : σ) (event : Event) : System σ :=
  { system with device, trace := system.trace ++ [event] }

def withFailure (system : System σ) (failure : HostPublishFailure) : System σ :=
  { system with host := { system.host with lastPublishFailure := failure } }

end System

/-- A poll that fails or reports a task that the runtime does not have. -/
inductive Misread (device : Device σ) (system : System σ) : System σ → Prop
  | failed {status : Errno} {completion : CopyCompletion} {after : σ}
      (answer : device.poll system.device = ((some status, completion), after))
      (failure : status ≠ .eagain) :
      Misread device system (system.answered after (.polled (some status) completion))
  | unknown {completion : CopyCompletion} {after : σ}
      (answer : device.poll system.device = ((none, completion), after))
      (stranger : ¬((system.host.contexts (system.host.slot completion.taskId)).state =
          .submitted ∧
        (system.host.contexts (system.host.slot completion.taskId)).taskId =
          completion.taskId)) :
      Misread device system (system.answered after (.polled none completion))

/-- What makes the backend give up. -/
inductive Fault (device : Device σ) (system : System σ) : System σ → Prop
  | misread {after : System σ} (misread : Misread device system after) :
      Fault device system after
  | refused {status : Status} {count : Nat} {after : σ}
      (waiting : system.host.pending ≠ []) (flushed : system.host.pendingFlushed = true)
      (answer : device.submitBatch system.host.pending system.device = ((status, count), after))
      (failed : status ≠ some .eagain)
      (useless : status = none → count = 0 ∨ system.host.pending.length < count) :
      Fault device system
        (system.answered after (.offered system.host.pending status count))
  | busy (room : system.host.outstanding < system.host.capacity)
      (unblocked : ¬(system.host.publishBlocked = true ∧ system.host.pending ≠ []))
      (occupied : (system.host.contexts (system.host.slot system.host.nextTaskId)).state ≠
        .free) :
      Fault device system system
  | stale (noted : system.host.lastPublishFailure ≠ .none) : Fault device system system

namespace Backend

def withSystem (backend : Backend σ) (system : System σ) : Backend σ :=
  { backend with system }

/-- The steps of the backend. With `strict`, requests are only taken while the backend
accepts. -/
inductive Step (device : Device σ) (strict : Prop) : Backend σ → Backend σ → Prop
  | clock {backend : Backend σ} :
      Step device strict backend
        (backend.withSystem
          { backend.system with device := (device.now backend.system.device).2 })
  | note {backend : Backend σ} (status : Status) :
      Step device strict backend { backend with lastError := status }
  | rearm {backend : Backend σ} :
      Step device strict backend (backend.withSystem (backend.system.withFailure .none))
  | queue {backend : Backend σ} {request : BackendRequest} {task : CopyTask} (now : Nat)
      (initialized : backend.host.initialized = true)
      (accepting : strict → backend.state = .accepting)
      (room : backend.host.outstanding < backend.host.capacity)
      (short : backend.host.pending.length < hostBatchSize)
      (fresh : backend.host.pending = [] ∨ backend.host.pendingFlushed = false)
      (free : (backend.host.contexts (backend.host.slot backend.host.nextTaskId)).state = .free)
      (valid : makeCopyTask backend.host.config request backend.host.nextTaskId = .ok task) :
      Step device strict backend
        (backend.withSystem (backend.system.enqueue request task now))
  | reject {backend : Backend σ} {request : BackendRequest} {status : Errno}
      (initialized : backend.host.initialized = true)
      (accepting : strict → backend.state = .accepting)
      (room : backend.host.outstanding < backend.host.capacity)
      (free : (backend.host.contexts (backend.host.slot backend.host.nextTaskId)).state = .free)
      (invalid : makeCopyTask backend.host.config request backend.host.nextTaskId =
        .error status) :
      Step device strict backend
        (backend.withSystem (backend.system.completeLocally request .backendError))
  | flush {backend : Backend σ} {after : σ} (initialized : backend.host.initialized = true)
      (waiting : backend.host.pending ≠ []) (unflushed : backend.host.pendingFlushed = false)
      (answer : device.flushToOwner backend.system.device = (none, after)) :
      Step device strict backend
        (backend.withSystem
          { backend.system.answered after (.flushed none) with
            host := { backend.host with pendingFlushed := true } })
  | retain {backend : Backend σ} {count : Nat} {after : σ}
      (initialized : backend.host.initialized = true)
      (waiting : backend.host.pending ≠ []) (flushed : backend.host.pendingFlushed = true)
      (answer : device.submitBatch backend.host.pending backend.system.device =
        ((some .eagain, count), after)) :
      Step device strict backend
        (backend.withSystem
          { backend.system.answered after
              (.offered backend.host.pending (some .eagain) count) with
            host := { backend.host with publishBlocked := true } })
  | take {backend : Backend σ} {count : Nat} {after : σ} {contexts : Nat → TaskContextSlot}
      (initialized : backend.host.initialized = true)
      (flushed : backend.host.pendingFlushed = true)
      (answer : device.submitBatch backend.host.pending backend.system.device =
        ((none, count), after))
      (positive : 1 ≤ count) (enough : count ≤ backend.host.pending.length)
      (marked : markSubmitted backend.host.capacityMask (backend.host.pending.take count)
        backend.host.contexts = (true, contexts)) :
      Step device strict backend
        (backend.withSystem
          { backend.system.answered after (.offered backend.host.pending none count) with
            host := backend.host.advance count contexts })
  | abandon {backend : Backend σ} {status : Errno} {after : σ}
      (initialized : backend.host.initialized = true)
      (waiting : backend.host.pending ≠ []) (unflushed : backend.host.pendingFlushed = false)
      (answer : device.flushToOwner backend.system.device = (some status, after)) :
      Step device strict backend
        (backend.withSystem
          (System.failPending .backendError
            { backend.system.answered after (.flushed (some status)) with
              host :=
                { backend.host with
                  publishBlocked := true
                  lastPublishFailure := .visibility } }).2)
  | breakdown {backend : Backend σ} {system : System σ} {failure : HostPublishFailure}
      (initialized : backend.host.initialized = true)
      (running : backend.state ≠ .stopped)
      (fault : Fault device backend.system system) :
      Step device strict backend
        (setState
          (backend.withSystem ((system.withFailure failure).failAll .backendError).2)
          .draining .draining)
  | misread {backend : Backend σ} {system : System σ}
      (initialized : backend.host.initialized = true)
      (misread : Misread device backend.system system) :
      Step device strict backend (backend.withSystem (system.withFailure .queue))
  | pollEmpty {backend : Backend σ} {completion : CopyCompletion} {after : σ}
      (initialized : backend.host.initialized = true)
      (answer : device.poll backend.system.device = ((some .eagain, completion), after)) :
      Step device strict backend
        (backend.withSystem
          (backend.system.answered after (.polled (some .eagain) completion)))
  | deliverLocal {backend : Backend σ} (initialized : backend.host.initialized = true)
      (nonempty : backend.host.localCount ≠ 0) :
      Step device strict backend
        (backend.withSystem
          (backend.system.deliverLocal
            (backend.host.localTaskIds (backend.host.slot backend.host.localHead))))
  | deliverPolled {backend : Backend σ} {completion : CopyCompletion} {after : σ}
      (initialized : backend.host.initialized = true)
      (answer : device.poll backend.system.device = ((none, completion), after))
      (taken : (backend.host.contexts (backend.host.slot completion.taskId)).state = .submitted)
      (named : (backend.host.contexts (backend.host.slot completion.taskId)).taskId =
        completion.taskId) :
      Step device strict backend
        (backend.withSystem
          ((backend.system.answered after (.polled none completion)).deliverPolled completion))
  | stopRequest {backend : Backend σ} {status : Status} {after : σ}
      (draining : backend.state = .draining)
      (unrequested : backend.runtimeStopRequested = false)
      (empty : backend.host.pending = [])
      (answer : device.requestStop backend.system.device = (status, after)) :
      Step device strict backend
        { backend.withSystem (backend.system.answered after (.stopRequested status)) with
          runtimeStopRequested := status = none }
  | drain {backend : Backend σ} (accepting : backend.state = .accepting) :
      Step device strict backend (backend.setState .draining .draining)
  | finish {backend : Backend σ} {after : σ} (draining : backend.state = .draining)
      (requested : backend.runtimeStopRequested = true)
      (nothing : backend.host.outstanding = 0) (empty : backend.host.pending = []) :
      Step device strict backend
        (setState
          { backend.withSystem { backend.system with device := after, host := {} } with
            runtimeStopRequested := false }
          .stopped .stopped)
  | setup {backend : Backend σ} (after : σ) (stopped : backend.state = .stopped) :
      Step device strict backend (backend.withSystem { backend.system with device := after })
  | start {backend : Backend σ} {config : Config} {after : σ}
      (stopped : backend.state = .stopped) (valid : validateConfig config = none)
      (small : config.queueCapacity ≤ (2 ^ 64 - 1) / contextSlotBytes) :
      Step device strict backend
        (setState
          { backend.withSystem
              { backend.system with
                device := after
                host :=
                  { backend.host with
                    config
                    initialized := true
                    contexts := fun _ => {}
                    localTaskIds := fun _ => 0
                    capacityMask := config.queueCapacity - 1 } } with
            lastError := none
            runtimeStopRequested := false }
          .accepting .started)

end Backend

end Ugdr.Gpu
