import Ugdr.Foundation.Execution
import Ugdr.Gpu.CopyHost

/-! # Copy backend

`PersistentCudaCopyBackend`: the states of the backend over its host, and what it does
when the host reports an error.
-/

namespace Ugdr.Gpu

open Ugdr.Machine
open Ugdr.Worker (BackendRequest BackendCompletion DatagramResult)

inductive BackendState
  | stopped
  | accepting
  | draining
  deriving DecidableEq, Repr

structure Backend (σ : Type) where
  system : System σ
  state : BackendState := .stopped
  lastError : Status := none
  runtimeStopRequested : Bool := false

namespace Backend

variable {σ : Type}

abbrev host (backend : Backend σ) : Host :=
  backend.system.host

abbrev trace (backend : Backend σ) : List Event :=
  backend.system.trace

/-- `state_ = state`. -/
def setState (backend : Backend σ) (state : BackendState) (event : Event) : Backend σ :=
  { backend with
    state
    system := { backend.system with trace := backend.system.trace ++ [event] } }

/-- A constructed backend. -/
def create (device : σ) : Backend σ :=
  { system := { device } }

/-! ## Start -/

/-- Undo the gate and the runtime after a failed `start`. -/
def unwind (device : Device σ) (gate : Bool) (status : Errno) (backend : Backend σ) :
    Status × Backend σ :=
  let unlocked := if gate then (device.resetGate backend.system.device).2
    else backend.system.device
  (some status,
    { backend with
      system := { backend.system with device := (device.resetRuntime unlocked).2 }
      lastError := some status })

def start (device : Device σ) (config : Config) (backend : Backend σ) : Status × Backend σ :=
  if backend.state ≠ .stopped ∨ validateConfig config ≠ none then
    (some .einval, backend)
  else
    let opened := device.initializeDevice config.deviceOrdinal backend.system.device
    let backend := { backend with system := { backend.system with device := opened.2 } }
    match opened.1 with
    | some status => backend.unwind device false status
    | none =>
        let gated := device.initializeGate config.deviceOrdinal backend.system.device
        let backend := { backend with system := { backend.system with device := gated.2 } }
        match gated.1 with
        | some status => backend.unwind device true status
        | none =>
            match backend.system.initializeHost device config with
            | (some status, system) => unwind device true status { backend with system }
            | (none, system) =>
                let launched := device.start config system.device
                let system := { system with device := launched.2 }
                match launched.1 with
                | some status =>
                    unwind device true status { backend with system := system.resetHost.2 }
                | none =>
                    (none,
                      setState
                        { backend with system, lastError := none, runtimeStopRequested := false }
                        .accepting .started)

/-! ## Stopping the runtime -/

def progressStopRequest (device : Device σ) (backend : Backend σ) : Status × Backend σ :=
  if backend.state ≠ .draining ∨ backend.runtimeStopRequested ∨
      backend.host.pending.length ≠ 0 then
    (none, backend)
  else
    let answer := device.requestStop backend.system.device
    (answer.1,
      { backend with
        system :=
          { backend.system with
            device := answer.2
            trace := backend.trace ++ [.stopRequested answer.1] }
        runtimeStopRequested := answer.1 = none })

/-- `progress_stop_request` with its error noted. -/
def noteStopRequest (device : Device σ) (backend : Backend σ) : Backend σ :=
  match backend.progressStopRequest device with
  | (none, backend) => backend
  | (some status, backend) => { backend with lastError := some status }

def handleHostError (device : Device σ) (status : Errno) (backend : Backend σ) : Backend σ :=
  let backend := { backend with lastError := some status }
  if backend.host.lastPublishFailure = .visibility then
    match backend.system.failPending .backendError with
    | (none, system) => { backend with system }
    | (some failure, system) =>
        setState { backend with system, lastError := some failure } .draining .draining
  else
    let backend :=
      match backend.system.failAll .backendError with
      | (none, system) => { backend with system }
      | (some failure, system) => { backend with system, lastError := some failure }
    (backend.setState .draining .draining).noteStopRequest device

/-! ## Submitting -/

def trySubmitAtTime (device : Device σ) (request : BackendRequest) (now : Nat)
    (backend : Backend σ) : Bool × Backend σ :=
  match backend.system.trySubmit device request now with
  | ((none, accepted), system) => (accepted, { backend with system })
  | ((some status, accepted), system) =>
      let backend := { backend with system }
      if status = .einval ∧ accepted = false ∧ backend.host.lastPublishFailure = .none then
        match backend.system.tryCompleteLocally request .backendError with
        | ((none, accepted), system) => (accepted, { backend with system })
        | ((some status, accepted), system) =>
            (accepted, handleHostError device status { backend with system })
      else
        (accepted, backend.handleHostError device status)

/-- Read the clock. -/
def readClock (device : Device σ) (backend : Backend σ) : Nat × Backend σ :=
  let answer := device.now backend.system.device
  (answer.1, { backend with system := { backend.system with device := answer.2 } })

def trySubmit (device : Device σ) (request : BackendRequest) (backend : Backend σ) :
    Bool × Backend σ :=
  if backend.state ≠ .accepting then
    (false, backend)
  else
    let clock := backend.readClock device
    clock.2.trySubmitAtTime device request clock.1

/-- The loop of `try_submit_batch`, which returns the number of accepted requests. -/
def submitAll (device : Device σ) (now : Nat) :
    List BackendRequest → Backend σ → Nat × Backend σ
  | [], backend => (0, backend)
  | request :: requests, backend =>
      match backend.trySubmitAtTime device request now with
      | (false, backend) => (0, backend)
      | (true, backend) =>
          let rest := submitAll device now requests backend
          (rest.1 + 1, rest.2)

def trySubmitBatch (device : Device σ) (requests : List BackendRequest)
    (backend : Backend σ) : Nat × Backend σ :=
  if backend.state ≠ .accepting then
    (0, backend)
  else
    let clock := backend.readClock device
    submitAll device clock.1 requests clock.2

/-- `publish_pending_now` with its error handled. -/
def publishPendingNow (device : Device σ) (backend : Backend σ) : Status × Backend σ :=
  match backend.system.publishPendingNow device with
  | (none, system) => (none, { backend with system })
  | (some status, system) => (some status, handleHostError device status { backend with system })

def flushSubmissions (device : Device σ) (backend : Backend σ) : Bool × Backend σ :=
  if backend.state ≠ .accepting then
    (false, backend)
  else
    let published := backend.publishPendingNow device
    (published.1 = none, published.2)

/-! ## Completing -/

/-- The first half of `try_pop_completion_at_time`: a second attempt follows a failed
one. -/
def attemptPop (device : Device σ) (now : Nat) (backend : Backend σ) :
    Option BackendCompletion × Backend σ :=
  match backend.system.tryPopCompletion device now with
  | ((none, completion), system) => (completion, { backend with system })
  | ((some status, _), system) =>
      let failed := handleHostError device status { backend with system }
      match failed.system.tryPopCompletion device now with
      | ((none, completion), system) => (completion, { failed with system })
      | ((some status, _), system) => (none, { failed with system, lastError := some status })

def tryPopCompletionAtTime (device : Device σ) (now : Nat) (backend : Backend σ) :
    Option BackendCompletion × Backend σ :=
  let attempt := backend.attemptPop device now
  if attempt.2.state = .draining then
    (attempt.1, attempt.2.noteStopRequest device)
  else
    attempt

def tryPopCompletion (device : Device σ) (backend : Backend σ) :
    Option BackendCompletion × Backend σ :=
  if backend.state = .stopped then
    (none, backend)
  else
    let clock := backend.readClock device
    clock.2.tryPopCompletionAtTime device clock.1

/-- The loop of `try_pop_completion_batch`. -/
def popAll (device : Device σ) (now : Nat) :
    Nat → Backend σ → List BackendCompletion × Backend σ
  | 0, backend => ([], backend)
  | capacity + 1, backend =>
      match backend.tryPopCompletionAtTime device now with
      | (none, backend) => ([], backend)
      | (some completion, backend) =>
          let rest := popAll device now capacity backend
          (completion :: rest.1, rest.2)

def tryPopCompletionBatch (device : Device σ) (capacity : Nat) (backend : Backend σ) :
    List BackendCompletion × Backend σ :=
  if backend.state = .stopped then
    ([], backend)
  else
    let clock := backend.readClock device
    popAll device clock.1 capacity clock.2

/-! ## Stop -/

def requestStop (device : Device σ) (backend : Backend σ) : Status × Backend σ :=
  if backend.state ≠ .accepting then
    (some .einval, backend)
  else
    let published := (backend.setState .draining .draining).publishPendingNow device
    match published.2.progressStopRequest device with
    | (some status, backend) => (some status, { backend with lastError := some status })
    | (none, backend) => (published.1, backend)

/-- The first status that is an error. -/
def firstError (statuses : List Status) : Status :=
  statuses.foldl (fun first status => if first = none then status else first) none

def wait (device : Device σ) (backend : Backend σ) : Status × Backend σ :=
  if backend.state ≠ .draining then
    (some .einval, backend)
  else
    match backend.progressStopRequest device with
    | (some status, backend) => (some status, { backend with lastError := some status })
    | (none, backend) =>
        if backend.runtimeStopRequested = false ∨ backend.host.outstanding ≠ 0 ∨
            backend.host.pending.length ≠ 0 then
          (some .eagain, backend)
        else
          let waited := device.wait backend.system.device
          let runtime := device.resetRuntime waited.2
          let host := ({ backend.system with device := runtime.2 } : System σ).resetHost
          let gate := device.resetGate host.2.device
          let status := firstError [waited.1, runtime.1, host.1, gate.1]
          (status,
            setState
              { backend with
                system := { host.2 with device := gate.2 }
                runtimeStopRequested := false
                lastError := if status = none then backend.lastError else status }
              .stopped .stopped)

/-! ## Calls -/

/-- The calls that the users of a backend make. -/
inductive Call
  | start (config : Config)
  | trySubmit (request : BackendRequest)
  | trySubmitBatch (requests : List BackendRequest)
  | flushSubmissions
  | tryPopCompletion
  | tryPopCompletionBatch (capacity : Nat)
  | requestStop
  | wait
  deriving DecidableEq, Repr

def step (device : Device σ) (backend : Backend σ) : Call → Backend σ
  | .start config => (backend.start device config).2
  | .trySubmit request => (backend.trySubmit device request).2
  | .trySubmitBatch requests => (backend.trySubmitBatch device requests).2
  | .flushSubmissions => (backend.flushSubmissions device).2
  | .tryPopCompletion => (backend.tryPopCompletion device).2
  | .tryPopCompletionBatch capacity => (backend.tryPopCompletionBatch device capacity).2
  | .requestStop => (backend.requestStop device).2
  | .wait => (backend.wait device).2

end Backend

end Ugdr.Gpu
