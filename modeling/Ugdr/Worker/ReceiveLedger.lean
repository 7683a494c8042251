import Ugdr.Worker.Conservation

/-! # Receive ledger

What a run does with Receive WRs: the ones posted to the receive queue, the slots
released, the parents admitted with the Receive WR each took, and the parents retired
with the response each was answered by. The ledger is read off the state before and
after every action and is not part of the program.
-/

namespace Ugdr.Worker

open Ugdr.Queue Ugdr.Control
open Ugdr.Control.QpService (WorkerQpView)

/-! ## Projections of the trace -/

namespace Event

@[simp] def received? : Event → Option (Nat × CompletionEntry)
  | .received requestId entry => some (requestId, entry)
  | _ => none

/-- The entry that this event adds to the receive completion queue. -/
@[simp] def publishedReceive? : Event → Option CompletionEntry
  | .received _ entry => some entry
  | .foreignReceive entry => some entry
  | _ => none

@[simp] def polledReceive? : Event → Option CompletionEntry
  | .polledReceive entry => some entry
  | _ => none

end Event

/-- The datagram, if it was the first of a write with immediate data and became a
backend request. -/
def handedOver? (disposed : RequestDatagram × Disposal) : Option RequestDatagram :=
  if disposed.2.backendRequest?.isSome ∧ disposed.1.payloadIndex = 0 ∧
      disposed.1.opcode = .rdmaWriteWithImmediate then
    some disposed.1
  else
    none

namespace World

variable (world : World)

/-- The receive completions published by the responder, with their parents. -/
def received : List (Nat × CompletionEntry) :=
  world.trace.filterMap Event.received?

def publishedReceive : List CompletionEntry :=
  world.trace.filterMap Event.publishedReceive?

def polledReceive : List CompletionEntry :=
  world.trace.filterMap Event.polledReceive?

/-- The first datagrams of the writes with immediate data that were handed to the
backend, in order. -/
def handedOver : List RequestDatagram :=
  world.disposed.filterMap handedOver?

/-- The datagram that `try_request` works on next. -/
def arriving : Option RequestDatagram :=
  match world.responder.pendingRequest with
  | some request => some request
  | none => world.transport.requests.head?

/-- The state once that datagram is pending. -/
def loaded : World :=
  match world.responder.pendingRequest with
  | some _ => world
  | none =>
      match world.transport.tryPopRequest with
      | none => world
      | some (request, transport) =>
          { world with
            transport
            responder := { world.responder with pendingRequest := some request } }

/-- The parent of the datagram was admitted and none of its payloads is handed over. -/
def begun (request : RequestDatagram) : Bool :=
  (world.responder.responderInflight request.parentRequestId).any
    fun parent => parent.nextPayloadIndex = 0

/-- The pending datagram, if its parent has peeked a Receive WR and not released it. -/
def holder : Option RequestDatagram :=
  world.responder.pendingRequest.filter
    fun request => world.begun request ∧ request.opcode = .rdmaWriteWithImmediate

/-- The pending datagram, if it has not begun a parent. -/
def unadmitted : List RequestDatagram :=
  (world.responder.pendingRequest.filter fun request => world.begun request = false).toList

end World

/-! ## The ledger -/

/-- A parent that entered `responder_inflight_`: its first datagram and the Receive WR
at the head of the queue, if the parent took it. -/
structure Admission where
  request : RequestDatagram
  receive : Option ReceiveWqeHeader

namespace Admission

def requestId (admission : Admission) : Nat :=
  admission.request.parentRequestId

/-- The parent with the Receive WR it took. -/
def claim (admission : Admission) : Option (RequestDatagram × ReceiveWqeHeader) :=
  admission.receive.map fun receive => (admission.request, receive)

/-- The receive completion of a write with immediate data. -/
def entry (qpNum : Nat) (request : RequestDatagram) (receive : ReceiveWqeHeader) :
    CompletionEntry :=
  { wrId := receive.wrId
    status := wcSuccess
    opcode := wcRecvRdmaWithImm
    byteLength := request.parentTotalLength
    immediateData := request.immediateData
    qpNum
    flags := wcWithImm }

/-- The receive completion that answering a parent calls for. -/
def completion (qpNum : Nat) (retired : Admission × ResponseDatagram) :
    Option (Nat × CompletionEntry) :=
  if retired.2.result = .success then
    retired.1.receive.map fun receive =>
      (retired.1.requestId, entry qpNum retired.1.request receive)
  else
    none

end Admission

structure ReceiveLedger where
  /-- The Receive WRs put in the queue. -/
  posted : List ReceiveWqeHeader := []
  /-- The slots released, each with the datagram worked on then. -/
  released : List (RequestDatagram × ReceiveWqeHeader) := []
  inflight : List Admission := []
  retired : List (Admission × ResponseDatagram) := []

namespace ReceiveLedger

/-- All parents that entered `responder_inflight_`, in order. -/
def admitted (ledger : ReceiveLedger) : List Admission :=
  ledger.retired.map Prod.fst ++ ledger.inflight

def claims (ledger : ReceiveLedger) : List (RequestDatagram × ReceiveWqeHeader) :=
  ledger.admitted.filterMap Admission.claim

/-- The parents that an action appends to `responder_order_`. -/
def admissions (before after : World) : List Admission :=
  (before.arriving.toList.zip
      (after.responder.responderOrder.drop before.responder.responderOrder.length)).map
    fun ⟨request, requestId⟩ =>
      { request
        receive :=
          if (after.responder.responderInflight requestId).any ResponderInflight.hasReceive then
            before.receiveQueue.items.head?
          else
            none }

/-- The ledger after an action, from the states before and after it: items appended to
the receive queue are posted and items gone from its front released; ids appended to
`responder_order_` are parents admitted and ids gone from its front parents answered. -/
def observe (before after : World) (ledger : ReceiveLedger) : ReceiveLedger :=
  let gone :=
    before.responder.responderOrder.length - after.responder.responderOrder.length
  { posted :=
      ledger.posted ++ after.receiveQueue.items.drop before.receiveQueue.items.length
    released :=
      ledger.released ++
        before.arriving.toList.zip
          (before.receiveQueue.items.take
            (before.receiveQueue.items.length - after.receiveQueue.items.length))
    inflight := ledger.inflight.drop gone ++ admissions before after
    retired :=
      ledger.retired ++
        (ledger.inflight.take gone).zip
          (after.transport.responses.drop before.transport.responses.length) }

end ReceiveLedger

/-- A run with its ledger. -/
structure ReceiveRun where
  world : World
  ledger : ReceiveLedger := {}

namespace ReceiveRun

def step (run : ReceiveRun) (action : Action) : ReceiveRun where
  world := run.world.step action
  ledger := run.ledger.observe run.world (run.world.step action)

def initial (configuration : World.Configuration) : ReceiveRun where
  world := .initial configuration

/-- The ledger does not influence the run. -/
theorem run_world (start : ReceiveRun) (actions : List Action) :
    (Execution.run step start actions).world =
      Execution.run World.step start.world actions := by
  induction actions generalizing start with
  | nil => rfl
  | cons action actions induction => exact induction (start.step action)

end ReceiveRun

/-! ## Invariant -/

/-- What a record in flight says about its admission. A parent with no payload handed
over is the one whose first datagram is pending. -/
structure Carried (world : World) (admission : Admission) (parent : ResponderInflight) :
    Prop where
  opcode : parent.opcode = admission.request.opcode
  hasReceive : parent.hasReceive = admission.receive.isSome
  receiveWrId : ∀ receive, admission.receive = some receive →
    parent.receiveWrId = receive.wrId
  byteLength : parent.byteLength = admission.request.parentTotalLength
  immediateData : parent.immediateData = admission.request.immediateData
  nonempty : parent.payloadCount ≠ 0
  consumed : parent.hasReceive = true →
    (parent.receiveConsumed = false ↔ parent.nextPayloadIndex = 0)
  first : parent.nextPayloadIndex = 0 →
    world.responder.pendingRequest = some admission.request ∧
      Addressed world admission.request ∧ validPayload admission.request parent = true

structure Accounted (world : World) (ledger : ReceiveLedger) : Prop where
  slots : ledger.posted = ledger.released.map Prod.snd ++ world.receiveQueue.items
  order : ledger.inflight.map Admission.requestId = world.responder.responderOrder
  distinct : world.responder.responderOrder.Nodup
  present : ∀ requestId, world.responder.responderInflight requestId ≠ none →
    requestId ∈ world.responder.responderOrder
  carried : ∀ admission ∈ ledger.inflight, ∃ parent,
    world.responder.responderInflight admission.requestId = some parent ∧
      Carried world admission parent
  kinds : ∀ admission ∈ ledger.admitted,
    admission.receive.isSome ↔ admission.request.opcode = .rdmaWriteWithImmediate
  answered : ∀ retired ∈ ledger.retired, retired.2.parentRequestId = retired.1.requestId
  claims : ledger.claims =
    ledger.released ++ world.holder.toList.zip world.receiveQueue.items
  peeked : world.receiveQueue.peeked = world.holder.toList.length
  stocked : world.receiveQueue.peeked ≤ world.receiveQueue.items.length
  handedOver : ledger.released.map Prod.fst = world.handedOver
  completions : world.received =
    ledger.retired.filterMap (Admission.completion world.responder.qpNum)
  published : world.publishedReceive = world.polledReceive ++ world.receiveCq.items
  sent : (ledger.admitted.map Admission.request ++
    (world.unadmitted ++ world.transport.requests)).Sublist world.sent

theorem initial_receives (configuration : World.Configuration) :
    Accounted (.initial configuration) {} where
  slots := rfl
  order := rfl
  distinct := List.nodup_nil
  present := fun _ absent => absurd rfl absent
  carried := fun _ member => absurd member List.not_mem_nil
  kinds := fun _ member => absurd member List.not_mem_nil
  answered := fun _ member => absurd member List.not_mem_nil
  claims := rfl
  peeked := rfl
  stocked := Nat.le_refl 0
  handedOver := rfl
  completions := rfl
  published := rfl
  sent := List.Sublist.refl []

end Ugdr.Worker
