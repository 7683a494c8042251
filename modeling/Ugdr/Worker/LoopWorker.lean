import Ugdr.Control.QpHandlers
import Ugdr.Queue.Fifo
import Ugdr.Worker.Datagram

/-! # Loop worker

The requester and the responder side of a `LoopWorker`, as functions on the two
workers of one transport and the rings they use. Every call of a ring, of the
transport or of the copy backend runs to its end inside one function here. What
the backend answers is an argument.
-/

namespace Ugdr.Worker

open Ugdr.Queue Ugdr.Control
open Ugdr.Control.QpService (WorkerQpView)

/-! ## Worker state -/

inductive LoopWorkerRole
  | requester
  | responder
  deriving DecidableEq, Repr

structure ParentCompletionEvent where
  parentRequestId : Nat
  wrId : Nat
  logicalBytes : Nat
  payloadCount : Nat
  result : DatagramResult
  deriving DecidableEq, Repr

structure SourceSegment where
  daemonAddress : Nat
  length : Nat
  deriving DecidableEq, Repr

structure RequesterInflight where
  wrId : Nat
  signaled : Bool
  logicalBytes : Nat
  payloadCount : Nat
  deriving DecidableEq, Repr

structure PendingSend where
  parentRequestId : Nat
  wrId : Nat
  signaled : Bool
  opcode : DatagramOpcode
  sourceQpNum : Nat
  targetQpNum : Nat
  remoteAddress : Nat
  rkey : Nat
  immediateData : Nat
  totalLength : Nat
  payloadCount : Nat
  sourceSegments : List SourceSegment
  segmentIndex : Nat := 0
  segmentOffset : Nat := 0
  payloadOffset : Nat := 0
  payloadIndex : Nat := 0
  zeroPayloadSent : Bool := false
  deriving DecidableEq, Repr

structure ResponderInflight where
  sourceQpNum : Nat
  targetQpNum : Nat
  opcode : DatagramOpcode
  remoteAddress : Nat
  rkey : Nat
  immediateData : Nat
  parentTotalLength : Nat
  targetDaemonAddress : Nat
  nextPayloadOffset : Nat := 0
  nextPayloadIndex : Nat := 0
  payloadCount : Nat
  terminalCount : Nat := 0
  terminal : List Bool
  results : List DatagramResult
  parentError : DatagramResult := .success
  hasReceive : Bool
  receiveConsumed : Bool := false
  receiveWrId : Nat
  byteLength : Nat
  deriving DecidableEq, Repr

structure LoopWorker where
  qpNum : Nat
  role : LoopWorkerRole
  payloadBytes : Nat
  observer : Bool
  nextSequence : Nat := 1
  requesterInflight : Nat → Option RequesterInflight := fun _ => none
  responderInflight : Nat → Option ResponderInflight := fun _ => none
  responderOrder : List Nat := []
  pendingSend : Option PendingSend := none
  pendingRequest : Option RequestDatagram := none
  pendingResponse : Option ResponseDatagram := none
  /-- The first `pending_backend_request_count_` entries of the array. -/
  pendingBackendRequests : List BackendRequest := []

def defaultPayloadBytes : Nat := 8192

def backendBatchCapacity : Nat := 64

namespace LoopWorker

/-- The constructor. -/
def create (qpNum : Nat) (role : LoopWorkerRole) (payloadBytes : Nat) (observer : Bool) :
    LoopWorker :=
  { qpNum
    role
    payloadBytes :=
      if payloadBytes = 0 then defaultPayloadBytes else min payloadBytes (2 ^ 32 - 1)
    observer }

/-- A QP number is 32 bits wide, so the shift keeps all of it. -/
def nextRequestId (worker : LoopWorker) : Nat :=
  worker.qpNum <<< 32 ||| worker.nextSequence

/-- `++next_sequence_`, which skips zero. -/
def followingSequence (sequence : Nat) : Nat :=
  let following := (sequence + 1) % 2 ^ 32
  if following = 0 then 1 else following

end LoopWorker

/-- A slot of a send queue: the header and the entries stored behind it, up to
however many the header announces. -/
structure SendWqe where
  header : SendWqeHeader
  sges : Nat → SharedSge
  /-- The length of an entry is a 32-bit field. -/
  length_lt : ∀ index, (sges index).length < 2 ^ 32

/-- `sges[0], …, sges[sge_count - 1]`. -/
def SendWqe.sgeList (wqe : SendWqe) : List SharedSge :=
  (List.range wqe.header.sgeCount).map wqe.sges

/-! ## What is observed of a run -/

/-- How `try_request` disposed of a datagram. -/
inductive Disposal
  | invalidTarget
  | invalidFirst
  | accessError
  | zeroPayload
  | backendRequest (request : BackendRequest)
  deriving DecidableEq, Repr

/-- What a consumed response did: the completion entry produced, if one was, and
the observer's event, if an observer is installed. -/
structure Answer where
  inflight : RequesterInflight
  completion : Option CompletionEntry
  observed : Option ParentCompletionEvent
  deriving DecidableEq, Repr

inductive Event
  /-- A client posted a send WR. -/
  | posted (wqe : SendWqe)
  /-- A parent entered `requester_inflight_`. -/
  | issued (service : QpService) (view : WorkerQpView) (wqe : SendWqe) (parent : PendingSend)
  /-- `complete_send_error` published an entry and released the WQE. -/
  | failed (wqe : SendWqe) (entry : CompletionEntry)
  | sent (request : RequestDatagram)
  /-- The last datagram of a WQE was sent and the WQE released. -/
  | released (wqe : SendWqe)
  | consumed (response : ResponseDatagram) (answer : Option Answer)
  /-- `resolve_rkey` decided about a parent. -/
  | resolved (service : QpService) (view : WorkerQpView) (request : RequestDatagram)
  | disposed (request : RequestDatagram) (disposal : Disposal)
  | invalidPayload (request : RequestDatagram)
  | accepted (request : BackendRequest)
  | popped (completion : BackendCompletion)
  | responded (response : ResponseDatagram)
  /-- A receive completion was published for a parent. -/
  | received (parentRequestId : Nat) (entry : CompletionEntry)
  /-- A client polled an entry from a completion queue. -/
  | polledSend (entry : CompletionEntry)
  | polledReceive (entry : CompletionEntry)
  /-- Another QP that shares a completion queue published an entry. -/
  | foreignSend (entry : CompletionEntry)
  | foreignReceive (entry : CompletionEntry)
  /-- A party other than the responder wrote to the transport or read from it. -/
  | delivered (response : ResponseDatagram)
  | taken (request : RequestDatagram)

/-- The two workers of one transport with the rings they use. `trace` records what
happened and is read by no function. -/
structure World where
  requester : LoopWorker
  responder : LoopWorker
  transport : LocalTransport
  sendQueue : Fifo SendWqe
  sendCq : Fifo CompletionEntry
  receiveQueue : Fifo ReceiveWqeHeader
  receiveCq : Fifo CompletionEntry
  trace : List Event := []

/-! ## Sending -/

/-- The running totals of the loop over the scatter-gather entries. -/
structure Gathered where
  totalLength : Nat := 0
  segments : List SourceSegment := []
  payloadCount : Nat := 0
  deriving DecidableEq, Repr

def Gathered.add (gathered : Gathered) (payloadBytes address length : Nat) : Gathered :=
  { totalLength := gathered.totalLength + length
    segments :=
      if length = 0 then gathered.segments else gathered.segments ++ [⟨address, length⟩]
    payloadCount :=
      if length = 0 then gathered.payloadCount
      else gathered.payloadCount + (length + payloadBytes - 1) / payloadBytes }

/-- The loop of `try_send` over the entries of a WQE. A failure is the completion
status of the WQE. -/
def gather (resolve : SharedSge → Except Errno Nat) (payloadBytes : Nat) :
    Gathered → List SharedSge → Except Nat Gathered
  | gathered, [] => .ok gathered
  | gathered, sge :: sges =>
      if 2 ^ 32 - 1 - sge.length < gathered.totalLength then
        .error wcLocLenErr
      else
        match resolve sge with
        | .error _ => .error wcLocProtErr
        | .ok address =>
            gather resolve payloadBytes (gathered.add payloadBytes address sge.length) sges

/-- The checks of `try_send` on the WQE at the head of the send queue. -/
def inspectSend (service : QpService) (view : WorkerQpView) (payloadBytes : Nat)
    (wqe : SendWqe) : Except Nat Gathered :=
  if view.maxSendSge < wqe.header.sgeCount then
    .error wcLocLenErr
  else if wqe.header.opcode ≠ wrRdmaWrite ∧ wqe.header.opcode ≠ wrRdmaWriteWithImm then
    .error wcLocQpOpErr
  else
    match gather (fun sge => service.resolveLkey view.sessionId view.pdIdentity sge.lkey
        sge.address sge.length) payloadBytes {} wqe.sgeList with
    | .error status => .error status
    | .ok gathered =>
        if 2 ^ 32 - 1 < gathered.payloadCount then .error wcLocLenErr else .ok gathered

/-- The parent built from a WQE that passed the checks. -/
def pendingSendOf (view : WorkerQpView) (requestId : Nat) (wqe : SendWqe)
    (gathered : Gathered) : PendingSend :=
  { parentRequestId := requestId
    wrId := wqe.header.wrId
    signaled := view.sqSigAll ≠ 0 ∨ wqe.header.sendFlags &&& sendSignaled ≠ 0
    opcode :=
      if wqe.header.opcode = wrRdmaWrite then .rdmaWrite else .rdmaWriteWithImmediate
    sourceQpNum := view.qpNum
    targetQpNum := view.peerQpNum
    remoteAddress := wqe.header.remoteAddress
    rkey := wqe.header.rkey
    immediateData := wqe.header.immediateData
    totalLength := gathered.totalLength
    payloadCount := gathered.payloadCount
    sourceSegments := gathered.segments }

def PendingSend.inflight (parent : PendingSend) : RequesterInflight :=
  { wrId := parent.wrId
    signaled := parent.signaled
    logicalBytes := parent.totalLength
    payloadCount := parent.payloadCount }

def sendErrorEntry (view : WorkerQpView) (wqe : SendWqe) (status : Nat) : CompletionEntry :=
  { wrId := wqe.header.wrId, status, opcode := wcRdmaWrite, qpNum := view.qpNum }

/-- `complete_send_error`, with the WQE peeked in `queue`. -/
def completeSendError (view : WorkerQpView) (wqe : SendWqe) (status : Nat)
    (queue : Fifo SendWqe) (world : World) : Bool × World :=
  let entry := sendErrorEntry view wqe status
  match world.sendCq.produce entry with
  | .error _ =>
      match queue.release 0 with
      | .error _ => (false, { world with sendQueue := queue })
      | .ok queue => (false, { world with sendQueue := queue })
  | .ok sendCq =>
      match queue.release 1 with
      | .error _ => (false, { world with sendQueue := queue, sendCq })
      | .ok queue =>
          (true,
            { world with
              sendQueue := queue
              sendCq
              trace := world.trace ++ [.failed wqe entry] })

/-- The first half of `try_send`, taken when no parent is pending. An error is an
early return with its result. -/
def loadSend (service : QpService) (view : WorkerQpView) (world : World) :
    Except (Bool × World) World :=
  match world.sendQueue.peek with
  | .error _ => .error (false, world)
  | .ok (wqe, sendQueue) =>
      match inspectSend service view world.requester.payloadBytes wqe with
      | .error status => .error (completeSendError view wqe status sendQueue world)
      | .ok gathered =>
          let requestId := world.requester.nextRequestId
          let parent := pendingSendOf view requestId wqe gathered
          match world.requester.requesterInflight requestId with
          | some _ => .error (false, { world with sendQueue })
          | none =>
              .ok
                { world with
                  sendQueue
                  requester :=
                    { world.requester with
                      requesterInflight :=
                        Function.update world.requester.requesterInflight requestId
                          (some parent.inflight)
                      pendingSend := some parent }
                  trace := world.trace ++ [.issued service view wqe parent] }

namespace PendingSend

/-- The datagram that the cursor points at. -/
def datagram (payloadBytes : Nat) (parent : PendingSend) : RequestDatagram :=
  let header : RequestDatagram :=
    { parentRequestId := parent.parentRequestId
      sourceQpNum := parent.sourceQpNum
      targetQpNum := parent.targetQpNum
      opcode := parent.opcode
      remoteAddress := parent.remoteAddress
      rkey := parent.rkey
      immediateData := parent.immediateData
      parentTotalLength := parent.totalLength
      payloadCount := parent.payloadCount }
  if parent.totalLength = 0 then
    header
  else
    match parent.sourceSegments[parent.segmentIndex]? with
    | none => header
    | some segment =>
        { header with
          payloadLength := min (segment.length - parent.segmentOffset) payloadBytes
          payloadIndex := parent.payloadIndex
          payloadOffset := parent.payloadOffset
          sourceDaemonAddress := (segment.daemonAddress + parent.segmentOffset) % 2 ^ 64 }

/-- The cursor after its datagram was pushed. -/
def advance (payloadBytes : Nat) (parent : PendingSend) : PendingSend :=
  if parent.totalLength = 0 then
    { parent with zeroPayloadSent := true }
  else
    match parent.sourceSegments[parent.segmentIndex]? with
    | none => parent
    | some segment =>
        let length := min (segment.length - parent.segmentOffset) payloadBytes
        let moved :=
          { parent with
            payloadOffset := parent.payloadOffset + length
            payloadIndex := parent.payloadIndex + 1 }
        if parent.segmentOffset + length = segment.length then
          { moved with segmentIndex := parent.segmentIndex + 1, segmentOffset := 0 }
        else
          { moved with segmentOffset := parent.segmentOffset + length }

def finished (parent : PendingSend) : Bool :=
  if parent.totalLength = 0 then parent.zeroPayloadSent
  else parent.payloadIndex = parent.payloadCount

end PendingSend

/-- The second half of `try_send`: push one datagram of the pending parent. -/
def pushPayload (parent : PendingSend) (world : World) : Bool × World :=
  if parent.totalLength = 0 ∧ parent.zeroPayloadSent then
    (false, world)
  else
    let request := parent.datagram world.requester.payloadBytes
    match world.transport.tryPushRequest request with
    | none => (false, world)
    | some transport =>
        let parent := parent.advance world.requester.payloadBytes
        let pushed :=
          { world with
            transport
            requester := { world.requester with pendingSend := some parent }
            trace := world.trace ++ [.sent request] }
        if parent.finished = false then
          (true, pushed)
        else
          match world.sendQueue.release 1 with
          | .error _ => (false, pushed)
          | .ok sendQueue =>
              (true,
                { pushed with
                  sendQueue
                  requester :=
                    { world.requester with
                      pendingSend := none
                      nextSequence :=
                        LoopWorker.followingSequence world.requester.nextSequence }
                  trace :=
                    pushed.trace ++ (world.sendQueue.items.head?.map Event.released).toList })

def trySend (service : QpService) (view : WorkerQpView) (world : World) : Bool × World :=
  match world.requester.pendingSend with
  | some parent => pushPayload parent world
  | none =>
      match loadSend service view world with
      | .error result => result
      | .ok world =>
          match world.requester.pendingSend with
          | some parent => pushPayload parent world
          | none => (false, world)

/-! ## Consuming responses -/

def sendCompletion (wrId qpNum : Nat) (result : DatagramResult) : CompletionEntry :=
  { wrId, status := completionStatus result, opcode := wcRdmaWrite, qpNum }

/-- Drop the pending response and record what it did. -/
def finishResponse (response : ResponseDatagram) (answer : Option Answer) (world : World) :
    World :=
  { world with
    requester := { world.requester with pendingResponse := none }
    trace := world.trace ++ [.consumed response answer] }

/-- `try_response` once a response is pending. `loaded` says that this call popped it. -/
def consumeResponse (view : WorkerQpView) (loaded : Bool) (response : ResponseDatagram)
    (world : World) : Bool × World :=
  match world.requester.requesterInflight response.parentRequestId with
  | none => (true, finishResponse response none world)
  | some inflight =>
      let event : ParentCompletionEvent :=
        { parentRequestId := response.parentRequestId
          wrId := inflight.wrId
          logicalBytes := inflight.logicalBytes
          payloadCount := inflight.payloadCount
          result := response.result }
      let observed := if world.requester.observer then some event else none
      let erased :=
        { world with
          requester :=
            { world.requester with
              requesterInflight :=
                Function.update world.requester.requesterInflight response.parentRequestId
                  none } }
      if response.result ≠ .success ∨ inflight.signaled then
        let entry := sendCompletion inflight.wrId view.qpNum response.result
        match world.sendCq.produce entry with
        | .error _ => (loaded, world)
        | .ok sendCq =>
            (true,
              finishResponse response (some { inflight, completion := some entry, observed })
                { erased with sendCq })
      else
        (true, finishResponse response (some { inflight, completion := none, observed }) erased)

def tryResponse (view : WorkerQpView) (world : World) : Bool × World :=
  match world.requester.pendingResponse with
  | some response => consumeResponse view false response world
  | none =>
      match world.transport.tryPopResponse with
      | none => (false, world)
      | some (response, transport) =>
          consumeResponse view true response
            { world with
              transport
              requester := { world.requester with pendingResponse := some response } }

/-! ## Handling requests -/

/-- Answer the pending request with an error and drop it. -/
def rejectRequest (loaded : Bool) (request : RequestDatagram) (result : DatagramResult)
    (events : List Event) (world : World) : Bool × World :=
  let response : ResponseDatagram := { parentRequestId := request.parentRequestId, result }
  match world.transport.tryPushResponse response with
  | none => (loaded, world)
  | some transport =>
      (true,
        { world with
          transport
          responder := { world.responder with pendingRequest := none }
          trace := world.trace ++ events ++ [.responded response] })

def validFirst (request : RequestDatagram) : Bool :=
  request.payloadIndex = 0 ∧ request.payloadOffset = 0 ∧
    ((request.payloadCount = 0 ∧ request.parentTotalLength = 0 ∧ request.payloadLength = 0) ∨
      (request.payloadCount ≠ 0 ∧ request.parentTotalLength ≠ 0 ∧
        request.payloadLength ≠ 0 ∧ request.payloadLength ≤ request.parentTotalLength ∧
        request.payloadCount ≤ request.parentTotalLength))

def responderInflightOf (request : RequestDatagram) (targetDaemonAddress : Nat)
    (receive : Option ReceiveWqeHeader) : ResponderInflight :=
  { sourceQpNum := request.sourceQpNum
    targetQpNum := request.targetQpNum
    opcode := request.opcode
    remoteAddress := request.remoteAddress
    rkey := request.rkey
    immediateData := request.immediateData
    parentTotalLength := request.parentTotalLength
    targetDaemonAddress
    payloadCount := request.payloadCount
    terminal := List.replicate request.payloadCount false
    results := List.replicate request.payloadCount .success
    hasReceive := receive.isSome
    receiveWrId := (receive.map ReceiveWqeHeader.wrId).getD 0
    byteLength := request.parentTotalLength % 2 ^ 32 }

/-- The receive WQE that a new parent takes: none for a plain write, the head of
the receive queue, peeked, for a write with immediate data. -/
def peekReceive (opcode : DatagramOpcode) (queue : Fifo ReceiveWqeHeader) :
    Except Errno (Option ReceiveWqeHeader × Fifo ReceiveWqeHeader) :=
  match opcode with
  | .rdmaWrite => .ok (none, queue)
  | .rdmaWriteWithImmediate =>
      match queue.peek with
      | .error status => .error status
      | .ok (receive, queue) => .ok (some receive, queue)

def validPayload (request : RequestDatagram) (parent : ResponderInflight) : Bool :=
  request.sourceQpNum = parent.sourceQpNum ∧ request.targetQpNum = parent.targetQpNum ∧
    request.opcode = parent.opcode ∧ request.remoteAddress = parent.remoteAddress ∧
    request.rkey = parent.rkey ∧ request.immediateData = parent.immediateData ∧
    request.parentTotalLength = parent.parentTotalLength ∧
    request.payloadCount = parent.payloadCount ∧
    ((parent.payloadCount = 0 ∧ request.payloadIndex = 0 ∧ request.payloadOffset = 0 ∧
        request.payloadLength = 0) ∨
      (parent.payloadCount ≠ 0 ∧ request.payloadIndex = parent.nextPayloadIndex ∧
        request.payloadIndex < parent.payloadCount ∧
        request.payloadOffset = parent.nextPayloadOffset ∧ request.payloadLength ≠ 0 ∧
        request.payloadOffset ≤ parent.parentTotalLength ∧
        request.payloadLength ≤ parent.parentTotalLength - request.payloadOffset))

/-- Release the receive WQE of a parent that still holds it. -/
def consumeReceive (parent : ResponderInflight) (queue : Fifo ReceiveWqeHeader) :
    Except Errno (ResponderInflight × Fifo ReceiveWqeHeader) :=
  if parent.hasReceive ∧ parent.receiveConsumed = false then
    match queue.release 1 with
    | .error status => .error status
    | .ok queue => .ok ({ parent with receiveConsumed := true }, queue)
  else
    .ok (parent, queue)

def backendRequestOf (request : RequestDatagram) (targetDaemonAddress : Nat) :
    BackendRequest :=
  { parentRequestId := request.parentRequestId
    parentTotalLength := request.parentTotalLength
    payloadOffset := request.payloadOffset
    sourceDaemonAddress := request.sourceDaemonAddress
    targetDaemonAddress := (targetDaemonAddress + request.payloadOffset) % 2 ^ 64
    payloadLength := request.payloadLength
    payloadIndex := request.payloadIndex
    payloadCount := request.payloadCount }

/-- The parent after one more payload was handed over. -/
def ResponderInflight.advance (parent : ResponderInflight) (request : RequestDatagram) :
    ResponderInflight :=
  { parent with
    nextPayloadIndex := parent.nextPayloadIndex + 1
    nextPayloadOffset := parent.nextPayloadOffset + request.payloadLength
    parentError :=
      if parent.nextPayloadIndex + 1 = parent.payloadCount ∧
          parent.nextPayloadOffset + request.payloadLength ≠ parent.parentTotalLength then
        .remoteInvalidRequest
      else
        parent.parentError }

/-- Store a parent in `responder_inflight_`. -/
def LoopWorker.setResponderInflight (worker : LoopWorker) (requestId : Nat)
    (parent : ResponderInflight) : LoopWorker :=
  { worker with
    responderInflight := Function.update worker.responderInflight requestId (some parent) }

/-- The last part of `try_request`, for a request whose parent is in flight. -/
def acceptPayload (loaded : Bool) (request : RequestDatagram) (parent : ResponderInflight)
    (world : World) : Bool × World :=
  if validPayload request parent = false then
    (loaded,
      { world with
        responder :=
          world.responder.setResponderInflight request.parentRequestId
            { parent with parentError := .remoteInvalidRequest }
        trace := world.trace ++ [.invalidPayload request] })
  else if parent.payloadCount = 0 then
    match consumeReceive parent world.receiveQueue with
    | .error _ => (false, world)
    | .ok (parent, receiveQueue) =>
        (true,
          { world with
            responder :=
              { world.responder.setResponderInflight request.parentRequestId parent with
                pendingRequest := none }
            receiveQueue
            trace := world.trace ++ [.disposed request .zeroPayload] })
  else if world.responder.pendingBackendRequests.length = backendBatchCapacity then
    (loaded, world)
  else
    let backendRequest := backendRequestOf request parent.targetDaemonAddress
    match consumeReceive parent world.receiveQueue with
    | .error _ => (loaded, world)
    | .ok (parent, receiveQueue) =>
        (true,
          { world with
            responder :=
              { world.responder.setResponderInflight request.parentRequestId
                  (parent.advance request) with
                pendingBackendRequests :=
                  world.responder.pendingBackendRequests ++ [backendRequest]
                pendingRequest := none }
            receiveQueue
            trace := world.trace ++ [.disposed request (.backendRequest backendRequest)] })

/-- The middle part of `try_request`: the first datagram of a parent. -/
def admitRequest (service : QpService) (view : WorkerQpView) (loaded : Bool)
    (request : RequestDatagram) (world : World) : Bool × World :=
  if validFirst request = false then
    rejectRequest loaded request .remoteInvalidRequest
      [.disposed request .invalidFirst] world
  else
    match service.resolveRkey view.sessionId view.pdIdentity request.rkey
        request.remoteAddress request.parentTotalLength with
    | .error _ =>
        rejectRequest loaded request .remoteAccessError
          [.resolved service view request, .disposed request .accessError] world
    | .ok targetDaemonAddress =>
        match peekReceive request.opcode world.receiveQueue with
        | .error _ => (loaded, world)
        | .ok (receive, receiveQueue) =>
            let parent := responderInflightOf request targetDaemonAddress receive
            let worker := world.responder.setResponderInflight request.parentRequestId parent
            acceptPayload loaded request parent
              { world with
                responder :=
                  { worker with
                    responderOrder := worker.responderOrder ++ [request.parentRequestId] }
                receiveQueue
                trace := world.trace ++ [.resolved service view request] }

/-- `try_request` once a request is pending. -/
def handleRequest (service : QpService) (view : WorkerQpView) (loaded : Bool)
    (request : RequestDatagram) (world : World) : Bool × World :=
  if request.targetQpNum ≠ view.qpNum ∨ 2 ^ 32 - 1 < request.parentTotalLength then
    rejectRequest loaded request .remoteInvalidRequest
      [.disposed request .invalidTarget] world
  else
    match world.responder.responderInflight request.parentRequestId with
    | some parent => acceptPayload loaded request parent world
    | none => admitRequest service view loaded request world

def tryRequest (service : QpService) (view : WorkerQpView) (world : World) : Bool × World :=
  match world.responder.pendingRequest with
  | some request => handleRequest service view false request world
  | none =>
      match world.transport.tryPopRequest with
      | none => (false, world)
      | some (request, transport) =>
          handleRequest service view true request
            { world with
              transport
              responder := { world.responder with pendingRequest := some request } }

/-! ## Backend requests and completions -/

/-- `try_flush_backend_requests`, where the backend accepts the first `accepted` of
the offered requests. -/
def tryFlushBackendRequests (accepted : Nat) (world : World) : Bool × World :=
  let pending := world.responder.pendingBackendRequests
  if pending.length = 0 then
    (false, world)
  else if accepted = 0 ∨ pending.length < accepted then
    (false, world)
  else
    (true,
      { world with
        responder := { world.responder with pendingBackendRequests := pending.drop accepted }
        trace := world.trace ++ (pending.take accepted).map Event.accepted })

def ResponderInflight.record (parent : ResponderInflight) (completion : BackendCompletion) :
    ResponderInflight :=
  if parent.payloadCount ≤ completion.payloadIndex ∨
      parent.terminal[completion.payloadIndex]? = some true then
    { parent with parentError := .backendError }
  else
    { parent with
      terminal := parent.terminal.set completion.payloadIndex true
      results := parent.results.set completion.payloadIndex completion.result
      terminalCount := parent.terminalCount + 1 }

/-- The loop body of `try_backend_completions`. -/
def recordCompletion (world : World) (completion : BackendCompletion) : World :=
  let popped := { world with trace := world.trace ++ [.popped completion] }
  match world.responder.responderInflight completion.parentRequestId with
  | none => popped
  | some parent =>
      { popped with
        responder :=
          world.responder.setResponderInflight completion.parentRequestId
            (parent.record completion) }

/-- `try_backend_completions`, where the backend delivers `completions`. -/
def tryBackendCompletions (completions : List BackendCompletion) (world : World) :
    Bool × World :=
  (completions ≠ [], completions.foldl recordCompletion world)

/-! ## Answering parents -/

def ResponderInflight.result (parent : ResponderInflight) : DatagramResult :=
  if parent.parentError = .success then
    (parent.results.find? (· ≠ .success)).getD .success
  else
    parent.parentError

def receiveEntry (view : WorkerQpView) (parent : ResponderInflight) : CompletionEntry :=
  { wrId := parent.receiveWrId
    status := wcSuccess
    opcode := wcRecvRdmaWithImm
    byteLength := parent.byteLength
    immediateData := parent.immediateData
    qpNum := view.qpNum
    flags := wcWithImm }

/-- Erase the parent at the head of `responder_order_`, whose response was pushed. -/
def retireParent (requestId : Nat) (response : ResponseDatagram) (events : List Event)
    (world : World) : World :=
  { world with
    responder :=
      { world.responder with
        responderInflight := Function.update world.responder.responderInflight requestId none
        responderOrder := world.responder.responderOrder.tail }
    trace := world.trace ++ [.responded response] ++ events }

/-- `try_parent_response` for a parent all of whose payloads are terminal. -/
def answerParent (view : WorkerQpView) (requestId : Nat) (parent : ResponderInflight)
    (world : World) : Bool × World :=
  let result := parent.result
  let response : ResponseDatagram := { parentRequestId := requestId, result }
  if result = .success ∧ parent.hasReceive then
    match world.receiveCq.reserve with
    | .error _ => (false, world)
    | .ok receiveCq =>
        match world.transport.tryPushResponse response with
        | none =>
            match receiveCq.publish [] with
            | .error _ => (false, { world with receiveCq })
            | .ok receiveCq => (false, { world with receiveCq })
        | some transport =>
            let entry := receiveEntry view parent
            match receiveCq.publish [entry] with
            | .error _ =>
                (false,
                  { world with
                    transport
                    receiveCq
                    trace := world.trace ++ [.responded response] })
            | .ok receiveCq =>
                (true,
                  retireParent requestId response [.received requestId entry]
                    { world with transport, receiveCq })
  else
    match world.transport.tryPushResponse response with
    | none => (false, world)
    | some transport => (true, retireParent requestId response [] { world with transport })

def tryParentResponse (view : WorkerQpView) (world : World) : Bool × World :=
  match world.responder.responderOrder with
  | [] => (false, world)
  | requestId :: order =>
      match world.responder.responderInflight requestId with
      | none =>
          (true, { world with responder := { world.responder with responderOrder := order } })
      | some parent =>
          if parent.nextPayloadIndex ≠ parent.payloadCount ∨
              parent.terminalCount ≠ parent.payloadCount then
            (false, world)
          else
            answerParent view requestId parent world

end Ugdr.Worker
