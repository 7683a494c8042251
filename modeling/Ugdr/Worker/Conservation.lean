import Ugdr.Worker.SendAccounting

/-! # Conservation of datagrams and backend requests

Between the splitter and the reassembler no datagram is lost, doubled or
reordered, and neither is a backend request on its way to the backend.
-/

namespace Ugdr.Worker

open Ugdr.Queue Ugdr.Control
open Ugdr.Control.QpService (WorkerQpView)

variable {permitted : World → Event → Prop} {world next : World}

/-- The requests on their way to the responder, the oldest first. -/
def World.travelling (world : World) : List RequestDatagram :=
  world.responder.pendingRequest.toList ++ world.transport.requests

/-- What was sent is what the responder disposed of and what is on its way to it;
what it made backend requests of is what the backend accepted and what waits. -/
structure Conserved (world : World) : Prop where
  requests : world.sent = world.disposed.map Prod.fst ++ world.travelling
  backendRequests :
    world.created = world.accepted ++ world.responder.pendingBackendRequests

/-- The projections of the trace that conservation is about. -/
theorem conserved_iff :
    Conserved world ↔
      world.trace.filterMap Event.sent? =
          (world.trace.filterMap Event.disposed?).map Prod.fst ++ world.travelling ∧
        (world.trace.filterMap Event.disposed?).filterMap
            (fun disposed => disposed.2.backendRequest?) =
          world.trace.filterMap Event.accepted? ++ world.responder.pendingBackendRequests :=
  ⟨fun conserved => ⟨conserved.requests, conserved.backendRequests⟩,
    fun ⟨requests, backendRequests⟩ => ⟨requests, backendRequests⟩⟩

theorem filterMap_accepted {α : Type*} {projection : Event → Option α}
    (quiet : ∀ request, projection (.accepted request) = none)
    (requests : List BackendRequest) :
    (requests.map Event.accepted).filterMap projection = [] := by
  rw [List.filterMap_map]
  exact List.filterMap_eq_nil_iff.mpr fun request _ => quiet request

theorem accepted_of_accepted (requests : List BackendRequest) :
    (requests.map Event.accepted).filterMap Event.accepted? = requests := by
  rw [List.filterMap_map]
  exact List.filterMap_some

theorem Conserved.transition (conserved : Conserved world)
    (untaken : ∀ world request, ¬permitted world (.taken request))
    (transition : Transition permitted world next) : Conserved next := by
  rw [conserved_iff] at conserved ⊢
  obtain ⟨requests, backendRequests⟩ := conserved
  rcases transition with transition | transition
  · have frame := transition.responderFrame
    have disposed : next.trace.filterMap Event.disposed? =
        world.trace.filterMap Event.disposed? :=
      frame.filterMap fun event own => by cases event <;> first | rfl | cases own
    have accepted : next.trace.filterMap Event.accepted? =
        world.trace.filterMap Event.accepted? :=
      frame.filterMap fun event own => by cases event <;> first | rfl | cases own
    rw [disposed, accepted, frame.responder, World.travelling, frame.responder]
    refine ⟨?_, backendRequests⟩
    cases transition with
    | post | pollSend | foreignSend | collide | loadResponse | ignore | answer | fail | issue =>
        simpa [World.travelling] using requests
    | push parent pending more =>
        simp [World.travelling, requests]
    | pushLast parent pending last =>
        cases world.sendQueue.items.head? <;> simp [World.travelling, requests]
  · have frame := transition.senderFrame
    have sent : next.trace.filterMap Event.sent? = world.trace.filterMap Event.sent? :=
      frame.filterMap fun event foreign => by cases event <;> first | rfl | cases foreign
    rw [sent, requests]
    cases transition with
    | receiveQueue | dropOrder => exact ⟨rfl, backendRequests⟩
    | pollReceive | foreignReceive | admitted | popUnknown | deliver =>
        simpa [World.travelling] using backendRequests
    | invalidPayload | pop =>
        simpa [World.travelling, LoopWorker.setResponderInflight] using backendRequests
    | loadRequest request rest idle queued =>
        simpa [World.travelling, idle, queued] using backendRequests
    | reject start request result disposal resolution pending reason =>
        cases reason <;>
          simpa [World.travelling, pending, List.filterMap_cons] using backendRequests
    | zeroPayload request parent consumed receiveQueue pending =>
        simpa [World.travelling, pending, LoopWorker.setResponderInflight] using backendRequests
    | accept request parent consumed receiveQueue pending =>
        simp [World.travelling, pending, backendRequests]
    | flush accepted =>
        have quiet := filterMap_accepted (fun _ => rfl : ∀ request,
          Event.disposed? (.accepted request) = none)
        simp only [List.filterMap_append, quiet, accepted_of_accepted, List.append_nil,
          List.append_assoc, List.take_append_drop]
        exact ⟨rfl, backendRequests⟩
    | retire view requestId order parent receive =>
        cases receive <;> simpa [World.travelling, List.filterMap_cons] using backendRequests
    | take request rest queued allowed => exact absurd allowed (untaken _ _)

end Ugdr.Worker
