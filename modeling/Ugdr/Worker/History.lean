import Ugdr.Foundation.Trace
import Ugdr.Worker.Splitting

/-! # What a trace says

Projections of the trace of a run: the WQEs posted and released, the parents
issued, the datagrams sent and disposed of, the backend requests handed over and
the completions popped.
-/

namespace Ugdr.Worker

open Ugdr.Queue Ugdr.Control
open Ugdr.Control.QpService (WorkerQpView)

namespace Event

@[simp] def posted? : Event → Option SendWqe
  | .posted wqe => some wqe
  | _ => none

/-- The WQE that leaves the send queue with this event. -/
@[simp] def released? : Event → Option SendWqe
  | .released wqe => some wqe
  | .failed wqe _ => some wqe
  | _ => none

/-- The WQE whose fate is decided by this event: it failed or became a parent. -/
@[simp] def started? : Event → Option SendWqe
  | .issued _ _ wqe _ => some wqe
  | .failed wqe _ => some wqe
  | _ => none

@[simp] def issued? : Event → Option PendingSend
  | .issued _ _ _ parent => some parent
  | _ => none

@[simp] def sent? : Event → Option RequestDatagram
  | .sent request => some request
  | _ => none

/-- The entry that this event adds to the send completion queue. -/
@[simp] def published? : Event → Option CompletionEntry
  | .failed _ entry => some entry
  | .consumed _ (some answer) => answer.completion
  | .foreignSend entry => some entry
  | _ => none

@[simp] def polledSend? : Event → Option CompletionEntry
  | .polledSend entry => some entry
  | _ => none

/-- The decision of `resolve_rkey` about the parent of a datagram. -/
@[simp] def resolved? : Event → Option (RequestDatagram × Except Errno Nat)
  | .resolved service view request =>
      some (request, service.resolveRkey view.sessionId view.pdIdentity request.rkey
        request.remoteAddress request.parentTotalLength)
  | _ => none

@[simp] def disposed? : Event → Option (RequestDatagram × Disposal)
  | .disposed request disposal => some (request, disposal)
  | _ => none

@[simp] def accepted? : Event → Option BackendRequest
  | .accepted request => some request
  | _ => none

@[simp] def popped? : Event → Option BackendCompletion
  | .popped completion => some completion
  | _ => none

end Event

/-- The backend request that a datagram became. -/
def Disposal.backendRequest? : Disposal → Option BackendRequest
  | .backendRequest request => some request
  | _ => none

namespace Disposal

@[simp] theorem backendRequest?_invalidTarget : invalidTarget.backendRequest? = none := rfl

@[simp] theorem backendRequest?_invalidFirst : invalidFirst.backendRequest? = none := rfl

@[simp] theorem backendRequest?_accessError : accessError.backendRequest? = none := rfl

@[simp] theorem backendRequest?_zeroPayload : zeroPayload.backendRequest? = none := rfl

@[simp] theorem backendRequest?_backendRequest (request : BackendRequest) :
    (backendRequest request).backendRequest? = some request := rfl

end Disposal

namespace World

variable (world : World)

def posted : List SendWqe :=
  world.trace.filterMap Event.posted?

def released : List SendWqe :=
  world.trace.filterMap Event.released?

def started : List SendWqe :=
  world.trace.filterMap Event.started?

def issued : List PendingSend :=
  world.trace.filterMap Event.issued?

def sent : List RequestDatagram :=
  world.trace.filterMap Event.sent?

def published : List CompletionEntry :=
  world.trace.filterMap Event.published?

def polledSend : List CompletionEntry :=
  world.trace.filterMap Event.polledSend?

def decisions : List (RequestDatagram × Except Errno Nat) :=
  world.trace.filterMap Event.resolved?

def disposed : List (RequestDatagram × Disposal) :=
  world.trace.filterMap Event.disposed?

/-- The backend requests made from datagrams, in order. -/
def created : List BackendRequest :=
  world.disposed.filterMap fun disposed => disposed.2.backendRequest?

def accepted : List BackendRequest :=
  world.trace.filterMap Event.accepted?

/-- The datagrams that the pending parent has still to send. -/
def unsent : List RequestDatagram :=
  match world.requester.pendingSend with
  | none => []
  | some parent => parent.datagrams world.requester.payloadBytes

end World

/-- The parent with this request id that has been issued and not yet answered. -/
def openParent (requestId : Nat) (trace : List Event) : Option PendingSend :=
  trace.foldl
    (fun parent event =>
      match event with
      | .issued _ _ _ issued => if issued.parentRequestId = requestId then some issued else parent
      | .consumed response _ => if response.parentRequestId = requestId then none else parent
      | _ => parent)
    none

/-- What consuming `response` does for the parent it answers: one completion entry
unless the parent succeeded unsignaled, and one event for an installed observer. -/
def answerOf (qpNum : Nat) (observer : Bool) (response : ResponseDatagram)
    (parent : PendingSend) : Answer where
  inflight := parent.inflight
  completion :=
    if response.result ≠ .success ∨ parent.signaled then
      some (sendCompletion parent.wrId qpNum response.result)
    else
      none
  observed :=
    if observer then
      some
        { parentRequestId := response.parentRequestId
          wrId := parent.wrId
          logicalBytes := parent.totalLength
          payloadCount := parent.payloadCount
          result := response.result }
    else
      none

section Projections

variable (trace : List Event) (requestId : Nat)

@[simp] theorem openParent_concat (event : Event) :
    openParent requestId (trace ++ [event]) =
      match event with
      | .issued _ _ _ issued =>
          if issued.parentRequestId = requestId then some issued
          else openParent requestId trace
      | .consumed response _ =>
          if response.parentRequestId = requestId then none else openParent requestId trace
      | _ => openParent requestId trace := by
  rw [openParent, List.foldl_append]
  cases event <;> rfl

end Projections

end Ugdr.Worker
