import Ugdr.Worker.Conservation

/-! # Runs with other peers

The responder does not know who writes the datagrams that it reads. Besides the actions of
the two workers, any peer may write any datagram to the transport.
-/

namespace Ugdr.Worker

open Ugdr.Queue Ugdr.Control
open Ugdr.Control.QpService (WorkerQpView)

inductive Delivery
  | action (action : Action)
  /-- A peer writes a request. -/
  | deliverRequest (request : RequestDatagram)

namespace World

def deliverRequest (request : RequestDatagram) (world : World) : World :=
  match world.transport.tryPushRequest request with
  | none => world
  | some transport => { world with transport, trace := world.trace ++ [.sent request] }

def deliver (world : World) : Delivery → World
  | .action action => world.step action
  | .deliverRequest request => world.deliverRequest request

end World

/-- Only the responder reads the requests. -/
def Untaken (_ : World) : Event → Prop
  | .taken _ => False
  | _ => True

instance (world : World) : DecidablePred (Untaken world)
  | .taken _ => inferInstanceAs (Decidable False)
  | .issued _ _ _ _ | .posted _ | .failed _ _ | .sent _ | .released _ | .consumed _ _
  | .resolved _ _ _ | .disposed _ _ | .invalidPayload _ | .accepted _ | .popped _ | .responded _
  | .received _ _ | .polledSend _ | .polledReceive _ | .foreignSend _ | .foreignReceive _
  | .delivered _ =>
      inferInstanceAs (Decidable True)

def Allowed (world : World) : Delivery → Prop
  | .action action => Admissible Untaken world action
  | .deliverRequest _ => True

/-- An invariant of the transitions that any datagram respects holds along every run. -/
theorem deliver_invariant {Invariant : World → Prop}
    (preserved : ∀ world next, Transition Untaken world next → Invariant world → Invariant next)
    (delivered : ∀ world request, Invariant world → Invariant (world.deliverRequest request))
    {start : World} (holds : Invariant start) {deliveries : List Delivery}
    (admissible : Execution.Along World.deliver Allowed start deliveries) :
    Invariant (Execution.run World.deliver start deliveries) := by
  refine Execution.run_invariant_along ?_ holds admissible
  intro world delivery admits invariant
  cases delivery with
  | action action => exact (step_transitions admits).invariant preserved invariant
  | deliverRequest request => exact delivered world request invariant

/-- A run of actions is a run with deliveries. -/
theorem run_deliver_actions (start : World) (actions : List Action) :
    Execution.run World.deliver start (actions.map Delivery.action) =
      Execution.run World.step start actions := by
  induction actions generalizing start with
  | nil => rfl
  | cons action actions induction => exact induction (start.step action)

theorem along_deliver_actions {start : World} {actions : List Action}
    (admissible : Execution.Along World.step (Admissible Untaken) start actions) :
    Execution.Along World.deliver Allowed start
      (actions.map Delivery.action) := by
  induction actions generalizing start with
  | nil => trivial
  | cons action actions induction => exact ⟨admissible.1, induction admissible.2⟩

/-- What is written to the transport is on its way. -/
theorem Conserved.deliverRequest {world : World} (conserved : Conserved world)
    (request : RequestDatagram) : Conserved (world.deliverRequest request) := by
  unfold World.deliverRequest LocalTransport.tryPushRequest
  split
  · exact conserved
  · rename_i transport pushed
    split at pushed
    · cases pushed
    · injection pushed with pushed
      subst pushed
      rw [conserved_iff] at conserved ⊢
      obtain ⟨requests, backendRequests⟩ := conserved
      simp only [World.travelling] at requests
      simp [World.travelling, requests, backendRequests]

end Ugdr.Worker
