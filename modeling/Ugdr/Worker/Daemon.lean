import Ugdr.Control.KeyResolution
import Ugdr.Worker.Refinement

/-! # The daemon

One control service and the two workers of a transport. Requests of any session
come between the calls of the workers, and a call looks its queue pair up in the
control state of that moment.
-/

namespace Ugdr.Worker

open Ugdr.Queue Ugdr.Control
open Ugdr.Control.QpService (WorkerQpView)

/-- An action of the workers, their clients, the backend or another peer, before the
control state it meets is known. -/
inductive Call
  | postSend (wqe : SendWqe)
  | postReceive (receive : ReceiveWqeHeader)
  | pollSendCq
  | pollReceiveCq
  | foreignSendCompletion (entry : CompletionEntry)
  | foreignReceiveCompletion (entry : CompletionEntry)
  | trySend
  | tryResponse
  | tryRequest
  | tryFlushBackendRequests (accepted : Nat)
  | tryBackendCompletions (completions : List BackendCompletion)
  | tryParentResponse
  | deliverResponse (response : ResponseDatagram)
  | takeRequest

def Call.action (service : QpService) : Call → Action
  | .postSend wqe => .postSend wqe
  | .postReceive receive => .postReceive receive
  | .pollSendCq => .pollSendCq
  | .pollReceiveCq => .pollReceiveCq
  | .foreignSendCompletion entry => .foreignSendCompletion entry
  | .foreignReceiveCompletion entry => .foreignReceiveCompletion entry
  | .trySend => .trySend service
  | .tryResponse => .tryResponse service
  | .tryRequest => .tryRequest service
  | .tryFlushBackendRequests accepted => .tryFlushBackendRequests service accepted
  | .tryBackendCompletions completions => .tryBackendCompletions service completions
  | .tryParentResponse => .tryParentResponse service
  | .deliverResponse response => .deliverResponse response
  | .takeRequest => .takeRequest

theorem Call.action_service (service other : QpService) (call : Call)
    (used : (call.action service).service = some other) : other = service := by
  cases call <;> simp_all [Call.action, Action.service]

inductive DaemonAction
  | control (event : QpService.Event)
  | call (call : Call)

structure Daemon where
  service : QpService
  world : World

namespace Daemon

def create (catalog : List DeviceDescriptor) (configuration : World.Configuration) : Daemon where
  service := .create catalog
  world := .initial configuration

def step (daemon : Daemon) : DaemonAction → Daemon
  | .control event => { daemon with service := daemon.service.step event }
  | .call call => { daemon with world := daemon.world.step (call.action daemon.service) }

/-- A call in a reachable control state is a sequence of transitions. -/
theorem call_transitions {service : QpService} (reachable : service.Reachable) (world : World)
    (call : Call) : Transitions (fun _ _ => True) world (world.step (call.action service)) := by
  refine step_transitions ⟨fun other used => ?_, fun _ _ => trivial⟩
  rw [call.action_service service other used]
  exact reachable

/-- The invariant rule: what the permitted events keep of the control service, and what
every call in a reachable control state with that property keeps of the workers. -/
theorem run_invariant {Permitted : QpService.Event → Prop} {Property : QpService → Prop}
    {Invariant : World → Prop}
    (kept : ∀ (service : QpService) (event : QpService.Event), service.Valid →
      Permitted event → Property service → Property (service.step event))
    (preserved : ∀ (world : World) (service : QpService) (call : Call), service.Reachable →
      Property service → Invariant world → Invariant (world.step (call.action service)))
    {initial : Daemon} (reachable : initial.service.Reachable)
    (property : Property initial.service) (invariant : Invariant initial.world)
    {actions : List DaemonAction}
    (permitted : ∀ event, .control event ∈ actions → Permitted event) :
    let daemon := Execution.run step initial actions
    daemon.service.Reachable ∧ Property daemon.service ∧ Invariant daemon.world := by
  induction actions generalizing initial with
  | nil => exact ⟨reachable, property, invariant⟩
  | cons action actions induction =>
      have later : ∀ event, .control event ∈ actions → Permitted event :=
        fun event member => permitted event (List.mem_cons_of_mem _ member)
      cases action with
      | control event =>
          have holds := kept _ event reachable.valid (permitted event (by simp)) property
          exact induction (reachable.step event) holds invariant later
      | call call =>
          exact induction reachable property (preserved _ _ call reachable property invariant)
            later

end Daemon

/-! ## The control states that events name -/

/-- The control state and the view that an event names are ones that `issues` or
`resolves` allows. -/
def Event.Names (issues resolves : QpService → WorkerQpView → Prop) : Event → Prop
  | .issued service view _ _ => issues service view
  | .resolved service view _ => resolves service view
  | _ => True

/-- The trace grew by events that all satisfy `allowed`. -/
def Extends (allowed : Event → Prop) (world next : World) : Prop :=
  ∃ events, next.trace = world.trace ++ events ∧ ∀ event ∈ events, allowed event

section Extends

variable {allowed : Event → Prop} {world next : World}

theorem Extends.same (trace : next.trace = world.trace) : Extends allowed world next :=
  ⟨[], by rw [trace, List.append_nil], List.forall_mem_nil _⟩

theorem Extends.of_append {events : List Event} (trace : next.trace = world.trace ++ events)
    (each : ∀ event ∈ events, allowed event) : Extends allowed world next :=
  ⟨events, trace, each⟩

theorem Extends.trans {middle : World} (first : Extends allowed world middle)
    (second : Extends allowed middle next) : Extends allowed world next := by
  obtain ⟨before, beforeTrace, beforeEach⟩ := first
  obtain ⟨after, afterTrace, afterEach⟩ := second
  refine ⟨before ++ after, by rw [afterTrace, beforeTrace, List.append_assoc], ?_⟩
  intro event member
  rcases List.mem_append.mp member with member | member
  · exact beforeEach event member
  · exact afterEach event member

end Extends

section Names

variable {issues resolves : QpService → WorkerQpView → Prop} {service : QpService}
  {view : WorkerQpView} {world : World}

theorem pushPayload_names (parent : PendingSend) :
    Extends (Event.Names issues resolves) world (pushPayload parent world).2 := by
  unfold pushPayload
  split
  · exact .same rfl
  · dsimp only
    split
    · exact .same rfl
    · split
      · exact .of_append rfl (by simp [Event.Names])
      · split
        · exact .of_append rfl (by simp [Event.Names])
        · refine .of_append (List.append_assoc _ _ _) ?_
          cases world.sendQueue.items.head? <;> simp [Event.Names]

theorem completeSendError_names (wqe : SendWqe) (status : Nat) (queue : Fifo SendWqe) :
    Extends (Event.Names issues resolves) world
      (completeSendError view wqe status queue world).2 := by
  unfold completeSendError
  dsimp only
  split
  · split <;> exact .same rfl
  · split
    · exact .same rfl
    · exact .of_append rfl (by simp [Event.Names])

theorem trySend_names (issue : issues service view) :
    Extends (Event.Names issues resolves) world (trySend service view world).2 := by
  unfold trySend
  split
  · exact pushPayload_names _
  · rename_i idle
    unfold loadSend
    split
    · rename_i result loaded
      split at loaded
      · injection loaded with same
        rw [← same]
        exact .same rfl
      · split at loaded
        · injection loaded with same
          rw [← same]
          exact completeSendError_names _ _ _
        · dsimp only at loaded
          split at loaded
          · injection loaded with same
            rw [← same]
            exact .same rfl
          · cases loaded
    · rename_i next loaded
      have extended : Extends (Event.Names issues resolves) world next := by
        split at loaded
        · cases loaded
        · split at loaded
          · cases loaded
          · dsimp only at loaded
            split at loaded
            · cases loaded
            · injection loaded with same
              rw [← same]
              exact .of_append rfl (by simpa [Event.Names] using issue)
      split
      · exact extended.trans (pushPayload_names _)
      · exact extended

theorem rejectRequest_names {loaded : Bool} {request : RequestDatagram}
    {result : DatagramResult} {events : List Event}
    (named : ∀ event ∈ events, event.Names issues resolves) :
    Extends (Event.Names issues resolves) world
      (rejectRequest loaded request result events world).2 := by
  unfold rejectRequest
  dsimp only
  split
  · exact .same rfl
  · refine .of_append (List.append_assoc _ _ _) ?_
    intro event member
    rcases List.mem_append.mp member with member | member
    · exact named event member
    · rw [List.mem_singleton.mp member]
      trivial

theorem acceptPayload_names {loaded : Bool} {request : RequestDatagram}
    {parent : ResponderInflight} :
    Extends (Event.Names issues resolves) world (acceptPayload loaded request parent world).2 := by
  unfold acceptPayload
  split
  · exact .of_append rfl (by simp [Event.Names])
  · split
    · split
      · exact .same rfl
      · exact .of_append rfl (by simp [Event.Names])
    · split
      · exact .same rfl
      · dsimp only
        split
        · exact .same rfl
        · exact .of_append rfl (by simp [Event.Names])

theorem handleRequest_names (resolve : resolves service view) {loaded : Bool}
    {request : RequestDatagram} :
    Extends (Event.Names issues resolves) world
      (handleRequest service view loaded request world).2 := by
  unfold handleRequest
  split
  · exact rejectRequest_names (by simp [Event.Names])
  · split
    · exact acceptPayload_names
    · unfold admitRequest
      split
      · exact rejectRequest_names (by simp [Event.Names])
      · split
        · exact rejectRequest_names (by simpa [Event.Names] using resolve)
        · split
          · exact .same rfl
          · refine Extends.trans ?_ acceptPayload_names
            exact .of_append rfl (by simpa [Event.Names] using resolve)

theorem tryRequest_names (resolve : resolves service view) :
    Extends (Event.Names issues resolves) world (tryRequest service view world).2 := by
  unfold tryRequest
  split
  · exact handleRequest_names resolve
  · split
    · exact .same rfl
    · exact .trans (.same rfl) (handleRequest_names resolve)

theorem consumeResponse_names {loaded : Bool} {response : ResponseDatagram} :
    Extends (Event.Names issues resolves) world
      (consumeResponse view loaded response world).2 := by
  unfold consumeResponse
  split
  · exact .of_append rfl (by simp [Event.Names])
  · dsimp only
    split
    · split
      · exact .same rfl
      · exact .of_append rfl (by simp [Event.Names])
    · exact .of_append rfl (by simp [Event.Names])

theorem tryResponse_names :
    Extends (Event.Names issues resolves) world (tryResponse view world).2 := by
  unfold tryResponse
  split
  · exact consumeResponse_names
  · split
    · exact .same rfl
    · exact .trans (.same rfl) consumeResponse_names

theorem tryParentResponse_names :
    Extends (Event.Names issues resolves) world (tryParentResponse view world).2 := by
  unfold tryParentResponse
  split
  · exact .same rfl
  · split
    · exact .same rfl
    · split
      · exact .same rfl
      · unfold answerParent
        dsimp only
        split
        · split
          · exact .same rfl
          · split
            · split <;> exact .same rfl
            · split
              · exact .of_append rfl (by simp [Event.Names])
              · exact .of_append (List.append_assoc _ _ _) (by simp [Event.Names])
        · split
          · exact .same rfl
          · exact .of_append (List.append_assoc _ _ _) (by simp [Event.Names])

theorem tryFlushBackendRequests_names (accepted : Nat) :
    Extends (Event.Names issues resolves) world
      (tryFlushBackendRequests accepted world).2 := by
  unfold tryFlushBackendRequests
  dsimp only
  split
  · exact .same rfl
  · split
    · exact .same rfl
    · refine .of_append rfl fun event member => ?_
      obtain ⟨request, -, rfl⟩ := List.mem_map.mp member
      trivial

theorem tryBackendCompletions_names (completions : List BackendCompletion) :
    Extends (Event.Names issues resolves) world
      (tryBackendCompletions completions world).2 := by
  refine .of_append (foldl_recordCompletion_trace world completions) fun event member => ?_
  obtain ⟨completion, -, rfl⟩ := List.mem_map.mp member
  trivial

/-- The calls of the daemon name the control state they are made in. -/
theorem step_names (call : Call)
    (issue : ∀ view, service.workerQpView world.requester.qpNum = .ok view →
      issues service view)
    (resolve : ∀ view, service.workerQpView world.responder.qpNum = .ok view →
      resolves service view) :
    Extends (Event.Names issues resolves) world (world.step (call.action service)) := by
  cases call with
  | trySend | tryResponse | tryRequest | tryFlushBackendRequests | tryBackendCompletions
  | tryParentResponse =>
      simp only [Call.action, World.step, withView]
      split
      · exact .same rfl
      · rename_i view found
        first
          | exact trySend_names (issue view found)
          | exact tryRequest_names (resolve view found)
          | exact tryResponse_names
          | exact tryFlushBackendRequests_names _
          | exact tryBackendCompletions_names _
          | exact tryParentResponse_names
  | postSend | postReceive | pollSendCq | pollReceiveCq | foreignSendCompletion
  | foreignReceiveCompletion | deliverResponse | takeRequest =>
      simp only [Call.action, World.step, World.postSend, World.postReceive, World.pollSendCq,
        World.pollReceiveCq, World.foreignSendCompletion, World.foreignReceiveCompletion,
        World.deliverResponse, World.takeRequest]
      split
      · exact .same rfl
      · first
          | exact .same rfl
          | exact .of_append rfl (by simp [Event.Names])

end Names

end Ugdr.Worker
