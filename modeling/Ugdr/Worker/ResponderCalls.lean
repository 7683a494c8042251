import Ugdr.Worker.ReceiveMatching

/-! # Calls of a responder

`progress_once` of a responder, one call after the other, with everything that may happen
around it: peers take responses, clients post receive WRs and poll their completion queue, the
transport hands over any datagram when it is asked for one, and the backend accepts some of the
requests and completes some of those that it accepted.
-/

namespace Ugdr.Worker

open Ugdr.Queue Ugdr.Control
open Ugdr.Control.QpService (WorkerQpView)

/-! ## Calls -/

/-- Where `progress_once` of a responder is. -/
inductive Phase
  | completions
  | responses
  | flush
  | requests
  | flushAgain
  | completionsAgain
  | responsesAgain
  deriving DecidableEq, Repr

/-- The phase behind a loop that ended. The last one is followed by the next call of
`progress_once`. -/
def Phase.next : Phase → Phase
  | .completions => .responses
  | .responses => .flush
  | .flush => .requests
  | .requests => .flushAgain
  | .flushAgain => .completionsAgain
  | .completionsAgain => .responsesAgain
  | .responsesAgain => .completions

structure ResponderState where
  phase : Phase := .completions
  world : World
  /-- The requests that the backend accepted and has not completed. -/
  outstanding : List BackendRequest := []

def ResponderState.initial (configuration : World.Configuration) : ResponderState :=
  { world := World.initial configuration }

/-- What peers and clients of the responder do. -/
inductive Surroundings : World → World → Prop
  | takeResponse (world : World) (response : ResponseDatagram) (rest : List ResponseDatagram)
      (responses : world.transport.responses = response :: rest) :
      Surroundings world
        { world with transport := { world.transport with responses := rest } }
  | postReceive (world : World) (receive : ReceiveWqeHeader) :
      Surroundings world (world.postReceive receive)
  | pollReceiveCq (world : World) : Surroundings world world.pollReceiveCq
  | foreignReceiveCompletion (world : World) (entry : CompletionEntry) :
      Surroundings world (world.foreignReceiveCompletion entry)

/-- The completion of an accepted request. -/
def BackendRequest.completion (request : BackendRequest) (result : DatagramResult) :
    BackendCompletion :=
  ⟨request.parentRequestId, request.payloadIndex, result⟩

/-- The transport has this datagram or none. -/
def World.offer (world : World) (offered : Option RequestDatagram) : World :=
  { world with transport := { world.transport with requests := offered.toList } }

/-- Without pending backend requests the requests are next. -/
def Phase.afterFlush (phase : Phase) (world : World) : Phase :=
  if phase = .flush ∧ world.responder.pendingBackendRequests.length ≠ 0 then
    .completionsAgain
  else
    phase.next

/-- One call of `progress_once`, or what happens between two calls. A call that uses the
control state is made in one of `services`, and `try_request` where `fits` says so. -/
inductive ResponderCall (services : QpService → Prop)
    (fits : QpService → WorkerQpView → World → Prop) : ResponderState → ResponderState → Prop
  | surroundings (state : ResponderState) (world : World)
      (moved : Surroundings state.world world) :
      ResponderCall services fits state { state with world }
  | completions (state : ResponderState)
      (completed : List (BackendRequest × DatagramResult)) (rest : List BackendRequest)
      (phase : state.phase = .completions ∨ state.phase = .completionsAgain)
      (batch : completed.length ≤ backendBatchCapacity)
      (accepted : state.outstanding.Perm (completed.map Prod.fst ++ rest)) :
      ResponderCall services fits state
        { phase := if completed = [] then state.phase.next else state.phase
          world := (tryBackendCompletions (completed.map fun pair =>
            pair.1.completion pair.2) state.world).2
          outstanding := rest }
  | response (state : ResponderState) (service : QpService) (view : WorkerQpView)
      (phase : state.phase = .responses ∨ state.phase = .responsesAgain)
      (serves : services service)
      (found : service.workerQpView state.world.responder.qpNum = .ok view) :
      ResponderCall services fits state
        { state with
          phase := if (tryParentResponse view state.world).1 then state.phase
            else state.phase.next
          world := (tryParentResponse view state.world).2 }
  | flush (state : ResponderState) (accepted : Nat)
      (phase : state.phase = .flush ∨ state.phase = .flushAgain) :
      ResponderCall services fits state
        { phase := state.phase.afterFlush (tryFlushBackendRequests accepted state.world).2
          world := (tryFlushBackendRequests accepted state.world).2
          outstanding :=
            if (tryFlushBackendRequests accepted state.world).1 then
              state.outstanding ++ state.world.responder.pendingBackendRequests.take accepted
            else
              state.outstanding }
  | request (state : ResponderState) (service : QpService) (view : WorkerQpView)
      (offered : Option RequestDatagram) (phase : state.phase = .requests)
      (serves : services service)
      (found : service.workerQpView state.world.responder.qpNum = .ok view)
      (fitting : fits service view (state.world.offer offered)) :
      ResponderCall services fits state
        { state with
          phase := if (tryRequest service view (state.world.offer offered)).1 then .requests
            else .flushAgain
          world := (tryRequest service view (state.world.offer offered)).2 }

/-- Sequences of calls. -/
abbrev ResponderCalls (services : QpService → Prop)
    (fits : QpService → WorkerQpView → World → Prop) :
    ResponderState → ResponderState → Prop :=
  Relation.ReflTransGen (ResponderCall services fits)

/-- Whatever datagrams there are. -/
def anyDatagram (_service : QpService) (_view : WorkerQpView) (_world : World) : Prop := True

theorem ResponderCall.mono {services : QpService → Prop}
    {fits weaker : QpService → WorkerQpView → World → Prop} {state next : ResponderState}
    (weakens : ∀ {service view world}, fits service view world → weaker service view world)
    (call : ResponderCall services fits state next) : ResponderCall services weaker state next := by
  cases call with
  | surroundings world moved => exact .surroundings state world moved
  | completions completed rest phase batch accepted =>
      exact .completions state completed rest phase batch accepted
  | response service view phase serves found =>
      exact .response state service view phase serves found
  | flush accepted phase => exact .flush state accepted phase
  | request service view offered phase serves found fitting =>
      exact .request state service view offered phase serves found (weakens fitting)

theorem ResponderCalls.mono {services : QpService → Prop}
    {fits weaker : QpService → WorkerQpView → World → Prop} {state next : ResponderState}
    (weakens : ∀ {service view world}, fits service view world → weaker service view world)
    (calls : ResponderCalls services fits state next) :
    ResponderCalls services weaker state next := by
  induction calls with
  | refl => exact .refl
  | tail earlier last induction => exact induction.tail (last.mono weakens)

/-! ## Wedges -/

/-- The call removes the parent and answers it with one response. -/
structure Retires (requestId : Nat) (state next : ResponderState) : Prop where
  before : state.world.responder.responderInflight requestId ≠ none
  after : next.world.responder.responderInflight requestId = none
  response : ∃ result, next.world.transport.responses =
    state.world.transport.responses ++ [{ parentRequestId := requestId, result }]

/-- With this control state, the pending datagram and the parent at the head of
`responder_order_` can still be removed. -/
structure Unwedged (service : QpService) (state : ResponderState) : Prop where
  pending : ∀ request, state.world.responder.pendingRequest = some request →
    ∃ next, ResponderCalls (· = service) anyDatagram state next ∧
      next.world.responder.pendingRequest = none
  parent : ∀ requestId order, state.world.responder.responderOrder = requestId :: order →
    ∃ before next, ResponderCalls (· = service) anyDatagram state before ∧
      ResponderCall (· = service) anyDatagram before next ∧ Retires requestId before next

/-! ## Conditions on datagrams -/

namespace World

/-- The datagram belongs to a parent in flight and fails `valid_payload`. -/
def Contradicts (world : World) (request : RequestDatagram) : Prop :=
  Addressed world request ∧ ∃ parent,
    world.responder.responderInflight request.parentRequestId = some parent ∧
      validPayload request parent = false

/-- All payloads of the parent were handed over. -/
def HandedOver (world : World) (requestId : Nat) : Prop :=
  ∀ parent, world.responder.responderInflight requestId = some parent →
    parent.nextPayloadIndex = parent.payloadCount

/-- So were those of the parent and of all before it in `responder_order_`. -/
def HandedOverUpTo (world : World) (requestId : Nat) : Prop :=
  world.HandedOver requestId ∧
    ∀ other ∈ world.responder.responderOrder.takeWhile (· ≠ requestId), world.HandedOver other

/-- The datagram will be accepted as a payload. -/
def TakesUp (service : QpService) (view : WorkerQpView) (world : World)
    (request : RequestDatagram) : Prop :=
  Addressed world request ∧
    match world.responder.responderInflight request.parentRequestId with
    | some parent => validPayload request parent = true
    | none =>
        validFirst request = true ∧
          ∃ target, service.resolveRkey view.sessionId view.pdIdentity request.rkey
            request.remoteAddress request.parentTotalLength = .ok target

end World

/-- Behind the payload there is at least one byte for every later one. -/
def LeavesRoom (request : RequestDatagram) : Prop :=
  request.payloadCount - (request.payloadIndex + 1) ≤
    request.parentTotalLength - (request.payloadOffset + request.payloadLength)

/-- The datagram contradicts no parent, unless the parents up to it only wait for the backend,
and a payload leaves room for the later ones of its parent. -/
structure Fits (service : QpService) (view : WorkerQpView) (world : World) : Prop where
  agrees : ∀ request, world.arriving = some request → world.Contradicts request →
    world.HandedOverUpTo request.parentRequestId
  room : ∀ request, world.arriving = some request → world.TakesUp service view request →
    LeavesRoom request

end Ugdr.Worker
