import Ugdr.Control.ServiceRuns
import Ugdr.Worker.LoopWorker
import Mathlib.Logic.Relation

/-! # Transitions of two workers

The runs of a requester and a responder: every call that a worker's loop can make
is an action, and so are the steps of clients, of other QPs that share a
completion queue and of the copy backend. `Transition` lists what one call can do to
the state; every action is a sequence of transitions.
-/

namespace Ugdr.Worker

open Ugdr.Queue Ugdr.Control
open Ugdr.Control.QpService (WorkerQpView)

/-! ## Actions -/

inductive Action
  | postSend (wqe : SendWqe)
  | postReceive (receive : ReceiveWqeHeader)
  | pollSendCq
  | pollReceiveCq
  | foreignSendCompletion (entry : CompletionEntry)
  | foreignReceiveCompletion (entry : CompletionEntry)
  | trySend (service : QpService)
  | tryResponse (service : QpService)
  | tryRequest (service : QpService)
  | tryFlushBackendRequests (service : QpService) (accepted : Nat)
  | tryBackendCompletions (service : QpService) (completions : List BackendCompletion)
  | tryParentResponse (service : QpService)
  /-- A peer other than the responder writes a response. -/
  | deliverResponse (response : ResponseDatagram)
  /-- A peer other than the responder reads a request. -/
  | takeRequest

/-- The control state that the call of an action looks its QP up in. -/
def Action.service : Action → Option QpService
  | .trySend service => some service
  | .tryResponse service => some service
  | .tryRequest service => some service
  | .tryFlushBackendRequests service _ => some service
  | .tryBackendCompletions service _ => some service
  | .tryParentResponse service => some service
  | _ => none

/-- The head of `progress_once`: without a view of the QP the call does nothing. -/
def withView (service : QpService) (qpNum : Nat) (world : World)
    (call : WorkerQpView → Bool × World) : Bool × World :=
  match service.workerQpView qpNum with
  | .error _ => (false, world)
  | .ok view => call view

namespace World

def postSend (wqe : SendWqe) (world : World) : World :=
  match world.sendQueue.produce wqe with
  | .error _ => world
  | .ok sendQueue => { world with sendQueue, trace := world.trace ++ [.posted wqe] }

def postReceive (receive : ReceiveWqeHeader) (world : World) : World :=
  match world.receiveQueue.produce receive with
  | .error _ => world
  | .ok receiveQueue => { world with receiveQueue }

def pollSendCq (world : World) : World :=
  match world.sendCq.consume with
  | .error _ => world
  | .ok (entry, sendCq) => { world with sendCq, trace := world.trace ++ [.polledSend entry] }

def pollReceiveCq (world : World) : World :=
  match world.receiveCq.consume with
  | .error _ => world
  | .ok (entry, receiveCq) =>
      { world with receiveCq, trace := world.trace ++ [.polledReceive entry] }

def foreignSendCompletion (entry : CompletionEntry) (world : World) : World :=
  match world.sendCq.produce entry with
  | .error _ => world
  | .ok sendCq => { world with sendCq, trace := world.trace ++ [.foreignSend entry] }

def foreignReceiveCompletion (entry : CompletionEntry) (world : World) : World :=
  match world.receiveCq.produce entry with
  | .error _ => world
  | .ok receiveCq => { world with receiveCq, trace := world.trace ++ [.foreignReceive entry] }

def deliverResponse (response : ResponseDatagram) (world : World) : World :=
  match world.transport.tryPushResponse response with
  | none => world
  | some transport => { world with transport, trace := world.trace ++ [.delivered response] }

def takeRequest (world : World) : World :=
  match world.transport.tryPopRequest with
  | none => world
  | some (request, transport) =>
      { world with transport, trace := world.trace ++ [.taken request] }

def step (world : World) : Action → World
  | .postSend wqe => world.postSend wqe
  | .postReceive receive => world.postReceive receive
  | .pollSendCq => world.pollSendCq
  | .pollReceiveCq => world.pollReceiveCq
  | .foreignSendCompletion entry => world.foreignSendCompletion entry
  | .foreignReceiveCompletion entry => world.foreignReceiveCompletion entry
  | .trySend service =>
      (withView service world.requester.qpNum world fun view => trySend service view world).2
  | .tryResponse service =>
      (withView service world.requester.qpNum world fun view => tryResponse view world).2
  | .tryRequest service =>
      (withView service world.responder.qpNum world fun view =>
        tryRequest service view world).2
  | .tryFlushBackendRequests service accepted =>
      (withView service world.responder.qpNum world fun _ =>
        tryFlushBackendRequests accepted world).2
  | .tryBackendCompletions service completions =>
      (withView service world.responder.qpNum world fun _ =>
        tryBackendCompletions completions world).2
  | .tryParentResponse service =>
      (withView service world.responder.qpNum world fun view =>
        tryParentResponse view world).2
  | .deliverResponse response => world.deliverResponse response
  | .takeRequest => world.takeRequest

/-- Two fresh workers on a fresh transport, with empty rings. -/
structure Configuration where
  requesterQpNum : Nat
  responderQpNum : Nat
  payloadBytes : Nat
  observer : Bool
  requestCapacity : Nat
  responseCapacity : Nat
  sendQueueCapacity : Nat
  sendCqCapacity : Nat
  receiveQueueCapacity : Nat
  receiveCqCapacity : Nat

def initial (configuration : Configuration) : World where
  requester :=
    .create configuration.requesterQpNum .requester configuration.payloadBytes
      configuration.observer
  responder := .create configuration.responderQpNum .responder configuration.payloadBytes false
  transport :=
    { requestCapacity := configuration.requestCapacity
      responseCapacity := configuration.responseCapacity }
  sendQueue := { capacity := configuration.sendQueueCapacity }
  sendCq := { capacity := configuration.sendCqCapacity }
  receiveQueue := { capacity := configuration.receiveQueueCapacity }
  receiveCq := { capacity := configuration.receiveCqCapacity }

end World

/-! ## Conditions on runs -/

/-- The events that an action records. -/
def World.newEvents (world : World) (action : Action) : List Event :=
  (world.step action).trace.drop world.trace.length

/-- The action uses a control state that the daemon can be in, and every event that
it records is permitted in the state before it. -/
structure Admissible (permitted : World → Event → Prop) (world : World) (action : Action) :
    Prop where
  reachable : ∀ service, action.service = some service → service.Reachable
  permitted : ∀ event ∈ world.newEvents action, permitted world event

/-- A run is admissible if all control states used in it are reachable and all events
are permitted. -/
theorem along_admissible {permitted : World → Event → Prop} {world : World}
    {actions : List Action}
    (reachable : ∀ action ∈ actions, ∀ service, action.service = some service →
      service.Reachable)
    (allowed : Execution.Along World.step
      (fun world action => ∀ event ∈ world.newEvents action, permitted world event)
      world actions) :
    Execution.Along World.step (Admissible permitted) world actions := by
  induction actions generalizing world with
  | nil => trivial
  | cons action actions induction =>
      exact ⟨⟨reachable action List.mem_cons_self, allowed.1⟩,
        induction (fun other member => reachable other (List.mem_cons_of_mem _ member))
          allowed.2⟩

/-! ## Transitions -/

/-- A request that passes the checks made on every datagram. -/
def Addressed (world : World) (request : RequestDatagram) : Prop :=
  request.targetQpNum = world.responder.qpNum ∧ request.parentTotalLength ≤ 2 ^ 32 - 1

/-- Why a request is answered with an error at once, with that error and what
`resolve_rkey` was asked. -/
inductive Rejects (world : World) (request : RequestDatagram) :
    DatagramResult → Disposal → List Event → Prop
  | target (misaddressed : ¬Addressed world request) :
      Rejects world request .remoteInvalidRequest .invalidTarget []
  | first (addressed : Addressed world request)
      (absent : world.responder.responderInflight request.parentRequestId = none)
      (invalid : validFirst request = false) :
      Rejects world request .remoteInvalidRequest .invalidFirst []
  | access (service : QpService) (view : WorkerQpView) (status : Errno)
      (addressed : Addressed world request)
      (absent : world.responder.responderInflight request.parentRequestId = none)
      (valid : validFirst request = true)
      (resolved : service.resolveRkey view.sessionId view.pdIdentity request.rkey
        request.remoteAddress request.parentTotalLength = .error status) :
      Rejects world request .remoteAccessError .accessError [.resolved service view request]

section Transition

variable (permitted : World → Event → Prop)

/-- What the clients of the requester and its calls can do to the state. Refused calls
do nothing. -/
inductive SenderTransition : World → World → Prop
  | post (world : World) (wqe : SendWqe) :
      SenderTransition world
        { world with
          sendQueue := { world.sendQueue with items := world.sendQueue.items ++ [wqe] }
          trace := world.trace ++ [.posted wqe] }
  | pollSend (world : World) (entry : CompletionEntry) (rest : List CompletionEntry)
      (items : world.sendCq.items = entry :: rest) :
      SenderTransition world
        { world with
          sendCq := { world.sendCq with items := rest }
          trace := world.trace ++ [.polledSend entry] }
  | foreignSend (world : World) (entry : CompletionEntry) :
      SenderTransition world
        { world with
          sendCq := { world.sendCq with items := world.sendCq.items ++ [entry] }
          trace := world.trace ++ [.foreignSend entry] }
  /-- The request id of the next parent is still in flight: the peek stays open. -/
  | collide (world : World) (peeked : world.sendQueue.peeked = 0)
      (idle : world.requester.pendingSend = none) :
      SenderTransition world { world with sendQueue := { world.sendQueue with peeked := 1 } }
  | fail (world : World) (service : QpService) (view : WorkerQpView) (wqe : SendWqe)
      (rest : List SendWqe) (status : Nat)
      (idle : world.requester.pendingSend = none)
      (peeked : world.sendQueue.peeked = 0) (items : world.sendQueue.items = wqe :: rest)
      (inspected : inspectSend service view world.requester.payloadBytes wqe = .error status)
      (qpNum : view.qpNum = world.requester.qpNum)
      (allowed : permitted world (.failed wqe (sendErrorEntry view wqe status))) :
      SenderTransition world
        { world with
          sendQueue := { world.sendQueue with items := rest }
          sendCq :=
            { world.sendCq with
              items := world.sendCq.items ++ [sendErrorEntry view wqe status] }
          trace := world.trace ++ [.failed wqe (sendErrorEntry view wqe status)] }
  | issue (world : World) (service : QpService) (view : WorkerQpView) (wqe : SendWqe)
      (rest : List SendWqe) (gathered : Gathered) (parent : PendingSend)
      (idle : world.requester.pendingSend = none)
      (peeked : world.sendQueue.peeked = 0) (items : world.sendQueue.items = wqe :: rest)
      (inspected : inspectSend service view world.requester.payloadBytes wqe = .ok gathered)
      (built : parent = pendingSendOf view world.requester.nextRequestId wqe gathered)
      (qpNum : view.qpNum = world.requester.qpNum)
      (absent : world.requester.requesterInflight parent.parentRequestId = none)
      (allowed : permitted world (.issued service view wqe parent)) :
      SenderTransition world
        { world with
          sendQueue := { world.sendQueue with peeked := 1 }
          requester :=
            { world.requester with
              requesterInflight :=
                Function.update world.requester.requesterInflight parent.parentRequestId
                  (some parent.inflight)
              pendingSend := some parent }
          trace := world.trace ++ [.issued service view wqe parent] }
  /-- A datagram that is not the last one, or the last one of a WQE that cannot be
  released. -/
  | push (world : World) (parent : PendingSend)
      (pending : world.requester.pendingSend = some parent)
      (more : (parent.advance world.requester.payloadBytes).finished = false ∨
        world.sendQueue.peeked = 0) :
      SenderTransition world
        { world with
          transport :=
            { world.transport with
              requests :=
                world.transport.requests ++ [parent.datagram world.requester.payloadBytes] }
          requester :=
            { world.requester with
              pendingSend := some (parent.advance world.requester.payloadBytes) }
          trace := world.trace ++ [.sent (parent.datagram world.requester.payloadBytes)] }
  | pushLast (world : World) (parent : PendingSend)
      (pending : world.requester.pendingSend = some parent)
      (last : (parent.advance world.requester.payloadBytes).finished = true) :
      SenderTransition world
        { world with
          transport :=
            { world.transport with
              requests :=
                world.transport.requests ++ [parent.datagram world.requester.payloadBytes] }
          sendQueue :=
            { world.sendQueue with items := world.sendQueue.items.drop 1, peeked := 0 }
          requester :=
            { world.requester with
              pendingSend := none
              nextSequence := LoopWorker.followingSequence world.requester.nextSequence }
          trace :=
            world.trace ++ [.sent (parent.datagram world.requester.payloadBytes)] ++
              (world.sendQueue.items.head?.map Event.released).toList }
  | loadResponse (world : World) (response : ResponseDatagram)
      (rest : List ResponseDatagram) (idle : world.requester.pendingResponse = none)
      (responses : world.transport.responses = response :: rest) :
      SenderTransition world
        { world with
          transport := { world.transport with responses := rest }
          requester := { world.requester with pendingResponse := some response } }
  | ignore (world : World) (response : ResponseDatagram)
      (pending : world.requester.pendingResponse = some response)
      (absent : world.requester.requesterInflight response.parentRequestId = none) :
      SenderTransition world
        { world with
          requester := { world.requester with pendingResponse := none }
          trace := world.trace ++ [.consumed response none] }
  | answer (world : World) (response : ResponseDatagram) (inflight : RequesterInflight)
      (answer : Answer) (pending : world.requester.pendingResponse = some response)
      (found : world.requester.requesterInflight response.parentRequestId = some inflight)
      (answered : answer =
        { inflight
          completion :=
            if response.result ≠ .success ∨ inflight.signaled then
              some (sendCompletion inflight.wrId world.requester.qpNum response.result)
            else
              none
          observed :=
            if world.requester.observer then
              some
                { parentRequestId := response.parentRequestId
                  wrId := inflight.wrId
                  logicalBytes := inflight.logicalBytes
                  payloadCount := inflight.payloadCount
                  result := response.result }
            else
              none }) :
      SenderTransition world
        { world with
          sendCq :=
            { world.sendCq with items := world.sendCq.items ++ answer.completion.toList }
          requester :=
            { world.requester with
              requesterInflight :=
                Function.update world.requester.requesterInflight response.parentRequestId
                  none
              pendingResponse := none }
          trace := world.trace ++ [.consumed response (some answer)] }

/-- What the responder, its clients, the backend and other peers can do to the
state. `start` is the state before the action that the transition is a part of. -/
inductive ResponderTransition : World → World → Prop
  | receiveQueue (world : World) (receiveQueue : Fifo ReceiveWqeHeader) :
      ResponderTransition world { world with receiveQueue }
  | pollReceive (world : World) (entry : CompletionEntry) (rest : List CompletionEntry)
      (items : world.receiveCq.items = entry :: rest) :
      ResponderTransition world
        { world with
          receiveCq := { world.receiveCq with items := rest }
          trace := world.trace ++ [.polledReceive entry] }
  | foreignReceive (world : World) (entry : CompletionEntry) :
      ResponderTransition world
        { world with
          receiveCq := { world.receiveCq with items := world.receiveCq.items ++ [entry] }
          trace := world.trace ++ [.foreignReceive entry] }
  | loadRequest (world : World) (request : RequestDatagram) (rest : List RequestDatagram)
      (idle : world.responder.pendingRequest = none)
      (requests : world.transport.requests = request :: rest) :
      ResponderTransition world
        { world with
          transport := { world.transport with requests := rest }
          responder := { world.responder with pendingRequest := some request } }
  /-- A request that is answered with an error at once. -/
  | reject (world start : World) (request : RequestDatagram) (result : DatagramResult)
      (disposal : Disposal) (resolution : List Event)
      (pending : world.responder.pendingRequest = some request)
      (reason : Rejects world request result disposal resolution)
      (order : start.responder.responderOrder = world.responder.responderOrder)
      (allowed : permitted start (.disposed request disposal)) :
      ResponderTransition world
        { world with
          transport :=
            { world.transport with
              responses :=
                world.transport.responses ++
                  [{ parentRequestId := request.parentRequestId, result }] }
          responder := { world.responder with pendingRequest := none }
          trace :=
            world.trace ++ (resolution ++ [.disposed request disposal]) ++
              [.responded { parentRequestId := request.parentRequestId, result }] }
  /-- A parent enters `responder_inflight_`. Its first request stays pending. -/
  | admitted (world : World) (service : QpService) (view : WorkerQpView)
      (request : RequestDatagram) (target : Nat) (receive : Option ReceiveWqeHeader)
      (receiveQueue : Fifo ReceiveWqeHeader)
      (pending : world.responder.pendingRequest = some request)
      (addressed : Addressed world request)
      (absent : world.responder.responderInflight request.parentRequestId = none)
      (valid : validFirst request = true)
      (resolved : service.resolveRkey view.sessionId view.pdIdentity request.rkey
        request.remoteAddress request.parentTotalLength = .ok target) :
      ResponderTransition world
        { world with
          responder :=
            { world.responder with
              responderInflight :=
                Function.update world.responder.responderInflight request.parentRequestId
                  (some (responderInflightOf request target receive))
              responderOrder := world.responder.responderOrder ++ [request.parentRequestId] }
          receiveQueue
          trace := world.trace ++ [.resolved service view request] }
  | invalidPayload (world : World) (request : RequestDatagram) (parent : ResponderInflight)
      (pending : world.responder.pendingRequest = some request)
      (addressed : Addressed world request)
      (found : world.responder.responderInflight request.parentRequestId = some parent)
      (invalid : validPayload request parent = false) :
      ResponderTransition world
        { world with
          responder :=
            world.responder.setResponderInflight request.parentRequestId
              { parent with parentError := .remoteInvalidRequest }
          trace := world.trace ++ [.invalidPayload request] }
  | zeroPayload (world : World) (request : RequestDatagram) (parent : ResponderInflight)
      (consumed : Bool) (receiveQueue : Fifo ReceiveWqeHeader)
      (pending : world.responder.pendingRequest = some request)
      (found : world.responder.responderInflight request.parentRequestId = some parent)
      (valid : validPayload request parent = true) (zero : parent.payloadCount = 0) :
      ResponderTransition world
        { world with
          responder :=
            { world.responder.setResponderInflight request.parentRequestId
                { parent with receiveConsumed := consumed } with
              pendingRequest := none }
          receiveQueue
          trace := world.trace ++ [.disposed request .zeroPayload] }
  | accept (world : World) (request : RequestDatagram) (parent : ResponderInflight)
      (consumed : Bool) (receiveQueue : Fifo ReceiveWqeHeader)
      (pending : world.responder.pendingRequest = some request)
      (found : world.responder.responderInflight request.parentRequestId = some parent)
      (valid : validPayload request parent = true) (nonzero : parent.payloadCount ≠ 0)
      (room : world.responder.pendingBackendRequests.length ≠ backendBatchCapacity) :
      ResponderTransition world
        { world with
          responder :=
            { world.responder.setResponderInflight request.parentRequestId
                ({ parent with receiveConsumed := consumed }.advance request) with
              pendingBackendRequests :=
                world.responder.pendingBackendRequests ++
                  [backendRequestOf request parent.targetDaemonAddress]
              pendingRequest := none }
          receiveQueue
          trace :=
            world.trace ++
              [.disposed request
                (.backendRequest (backendRequestOf request parent.targetDaemonAddress))] }
  | flush (world : World) (accepted : Nat) :
      ResponderTransition world
        { world with
          responder :=
            { world.responder with
              pendingBackendRequests := world.responder.pendingBackendRequests.drop accepted }
          trace :=
            world.trace ++
              (world.responder.pendingBackendRequests.take accepted).map Event.accepted }
  | popUnknown (world start : World) (completion : BackendCompletion)
      (earlier : List BackendCompletion)
      (trace : world.trace = start.trace ++ earlier.map Event.popped)
      (absent : world.responder.responderInflight completion.parentRequestId = none)
      (allowed : permitted start (.popped completion)) :
      ResponderTransition world { world with trace := world.trace ++ [.popped completion] }
  | pop (world start : World) (completion : BackendCompletion)
      (earlier : List BackendCompletion) (parent : ResponderInflight)
      (trace : world.trace = start.trace ++ earlier.map Event.popped)
      (found : world.responder.responderInflight completion.parentRequestId = some parent)
      (allowed : permitted start (.popped completion)) :
      ResponderTransition world
        { world with
          responder :=
            world.responder.setResponderInflight completion.parentRequestId
              (parent.record completion)
          trace := world.trace ++ [.popped completion] }
  | dropOrder (world : World) (requestId : Nat) (order : List Nat)
      (head : world.responder.responderOrder = requestId :: order)
      (absent : world.responder.responderInflight requestId = none) :
      ResponderTransition world
        { world with responder := { world.responder with responderOrder := order } }
  | retire (world : World) (view : WorkerQpView) (requestId : Nat) (order : List Nat)
      (parent : ResponderInflight) (receive : Option CompletionEntry)
      (head : world.responder.responderOrder = requestId :: order)
      (found : world.responder.responderInflight requestId = some parent)
      (submitted : parent.nextPayloadIndex = parent.payloadCount)
      (terminal : parent.terminalCount = parent.payloadCount)
      (receives : receive =
        if parent.result = .success ∧ parent.hasReceive then
          some (receiveEntry view parent)
        else
          none) :
      ResponderTransition world
        { world with
          transport :=
            { world.transport with
              responses :=
                world.transport.responses ++
                  [{ parentRequestId := requestId, result := parent.result }] }
          receiveCq := { world.receiveCq with items := world.receiveCq.items ++ receive.toList }
          responder :=
            { world.responder with
              responderInflight :=
                Function.update world.responder.responderInflight requestId none
              responderOrder := order }
          trace :=
            world.trace ++ [.responded { parentRequestId := requestId, result := parent.result }] ++
              receive.toList.map (Event.received requestId) }
  | deliver (world : World) (response : ResponseDatagram)
      (allowed : permitted world (.delivered response)) :
      ResponderTransition world
        { world with
          transport :=
            { world.transport with responses := world.transport.responses ++ [response] }
          trace := world.trace ++ [.delivered response] }
  | take (world : World) (request : RequestDatagram) (rest : List RequestDatagram)
      (requests : world.transport.requests = request :: rest)
      (allowed : permitted world (.taken request)) :
      ResponderTransition world
        { world with
          transport := { world.transport with requests := rest }
          trace := world.trace ++ [.taken request] }

def Transition (world next : World) : Prop :=
  SenderTransition permitted world next ∨ ResponderTransition permitted world next

/-- A sequence of transitions. -/
abbrev Transitions : World → World → Prop :=
  Relation.ReflTransGen (Transition permitted)

end Transition

/-! ## Frames -/

/-- The events of the requester, its clients and the other users of its queues. -/
def Event.bySender : Event → Bool
  | .posted _ => true
  | .issued _ _ _ _ => true
  | .failed _ _ => true
  | .sent _ => true
  | .released _ => true
  | .consumed _ _ => true
  | .polledSend _ => true
  | .foreignSend _ => true
  | _ => false

/-- Nothing of the requester's side changes. -/
structure SenderFrame (world next : World) : Prop where
  requester : next.requester = world.requester
  sendQueue : next.sendQueue = world.sendQueue
  sendCq : next.sendCq = world.sendCq
  responderQpNum : next.responder.qpNum = world.responder.qpNum
  trace : ∃ events, next.trace = world.trace ++ events ∧ ∀ event ∈ events, event.bySender = false

/-- Nothing of the responder's side changes. -/
structure ResponderFrame (world next : World) : Prop where
  responder : next.responder = world.responder
  receiveQueue : next.receiveQueue = world.receiveQueue
  receiveCq : next.receiveCq = world.receiveCq
  requesterQpNum : next.requester.qpNum = world.requester.qpNum
  trace : ∃ events, next.trace = world.trace ++ events ∧ ∀ event ∈ events, event.bySender = true

section Frame

variable {permitted : World → Event → Prop} {world next : World}

theorem ResponderTransition.senderFrame
    (transition : ResponderTransition permitted world next) : SenderFrame world next := by
  cases transition with
  | receiveQueue | loadRequest | dropOrder =>
      exact ⟨rfl, rfl, rfl, rfl, [], (List.append_nil _).symm, List.forall_mem_nil _⟩
  | pollReceive | foreignReceive | admitted | invalidPayload | zeroPayload | accept | popUnknown
  | pop | deliver | take =>
      exact ⟨rfl, rfl, rfl, rfl, _, rfl, by simp [Event.bySender]⟩
  | flush =>
      refine ⟨rfl, rfl, rfl, rfl, _, rfl, fun event member => ?_⟩
      obtain ⟨request, -, rfl⟩ := List.mem_map.mp member
      rfl
  | retire =>
      exact ⟨rfl, rfl, rfl, rfl, _, List.append_assoc _ _ _, by simp [Event.bySender]⟩
  | reject start request result disposal resolution pending reason =>
      refine ⟨rfl, rfl, rfl, rfl, _, List.append_assoc _ _ _, ?_⟩
      cases reason <;> simp [Event.bySender]

theorem SenderTransition.responderFrame
    (transition : SenderTransition permitted world next) : ResponderFrame world next := by
  cases transition with
  | collide | loadResponse =>
      exact ⟨rfl, rfl, rfl, rfl, [], (List.append_nil _).symm, List.forall_mem_nil _⟩
  | post | pollSend | foreignSend | fail | issue | push | ignore | answer =>
      exact ⟨rfl, rfl, rfl, rfl, _, rfl, by simp [Event.bySender]⟩
  | pushLast =>
      exact ⟨rfl, rfl, rfl, rfl, _, List.append_assoc _ _ _, by simp [Event.bySender]⟩

variable {α : Type*} {projection : Event → Option α}

/-- A projection onto the requester's events does not see the responder's. -/
theorem SenderFrame.filterMap (frame : SenderFrame world next)
    (quiet : ∀ event, event.bySender = false → projection event = none) :
    next.trace.filterMap projection = world.trace.filterMap projection := by
  obtain ⟨events, trace, foreign⟩ := frame.trace
  rw [trace, List.filterMap_append,
    List.filterMap_eq_nil_iff.mpr fun event member => quiet event (foreign event member),
    List.append_nil]

theorem ResponderFrame.filterMap (frame : ResponderFrame world next)
    (quiet : ∀ event, event.bySender = true → projection event = none) :
    next.trace.filterMap projection = world.trace.filterMap projection := by
  obtain ⟨events, trace, foreign⟩ := frame.trace
  rw [trace, List.filterMap_append,
    List.filterMap_eq_nil_iff.mpr fun event member => quiet event (foreign event member),
    List.append_nil]

end Frame

end Ugdr.Worker
