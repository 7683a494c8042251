import Ugdr.Worker.SendAccounting

/-! # One call of `progress_once`

`progress_once` repeats the calls of its role until they make no more progress. What
it does is a run of actions, so the results about runs hold for the interleavings
of whole calls as well.
-/

namespace Ugdr.Worker

open Ugdr.Queue Ugdr.Control
open Ugdr.Control.QpService (WorkerQpView)

/-- `while (call()) { progressed = true; }`, for a call that may have several outcomes. -/
inductive Loop (call : World → Bool × World → Prop) : World → Bool × World → Prop
  | stop (world next : World) (last : call world (false, next)) : Loop call world (false, next)
  | again (world middle next : World) (progressed : Bool)
      (first : call world (true, middle)) (rest : Loop call middle (progressed, next)) :
      Loop call world (true, next)

section Calls

variable (service : QpService) (view : WorkerQpView)

/-- `try_backend_completions`, whatever the backend delivers. -/
def CompletionsCall (world : World) (result : Bool × World) : Prop :=
  ∃ completions, result = tryBackendCompletions completions world

/-- `try_flush_backend_requests`, whatever the backend accepts. -/
def FlushCall (world : World) (result : Bool × World) : Prop :=
  ∃ accepted, result = tryFlushBackendRequests accepted world

/-- The loop over new requests with the flush after it, entered only if no request is
left over from the flush before. -/
def TakeRequests (world : World) (result : Bool × World) : Prop :=
  if world.responder.pendingBackendRequests.length = 0 then
    ∃ taken flushed,
      Loop (fun world result => result = tryRequest service view world) world taken ∧
        FlushCall taken.2 flushed ∧ result = (taken.1 || flushed.1, flushed.2)
  else
    result = (false, world)

/-- The loops of a responder, one after the other. -/
def ResponderProgress (world : World) (result : Bool × World) : Prop :=
  ∃ popped answered flushed taken poppedAgain answeredAgain,
    Loop CompletionsCall world popped ∧
      Loop (fun world result => result = tryParentResponse view world) popped.2 answered ∧
      FlushCall answered.2 flushed ∧
      TakeRequests service view flushed.2 taken ∧
      Loop CompletionsCall taken.2 poppedAgain ∧
      Loop (fun world result => result = tryParentResponse view world) poppedAgain.2
        answeredAgain ∧
      result =
        (popped.1 || answered.1 || flushed.1 || taken.1 || poppedAgain.1 || answeredAgain.1,
          answeredAgain.2)

/-- The loops of a requester. -/
def RequesterProgress (world : World) (result : Bool × World) : Prop :=
  ∃ answered sent,
    Loop (fun world result => result = tryResponse view world) world answered ∧
      Loop (fun world result => result = trySend service view world) answered.2 sent ∧
      result = (answered.1 || sent.1, sent.2)

/-- `progress_once` of the worker with this role. -/
def ProgressOnce (role : LoopWorkerRole) (world : World) (result : Bool × World) : Prop :=
  match role with
  | .responder =>
      match service.workerQpView world.responder.qpNum with
      | .error _ => result = (false, world)
      | .ok view => ResponderProgress service view world result
  | .requester =>
      match service.workerQpView world.requester.qpNum with
      | .error _ => result = (false, world)
      | .ok view => RequesterProgress service view world result

end Calls

/-! ## Progress as a run -/

/-- `next` is reached by calls made in one control state. -/
def ReachedBy (service : QpService) (world next : World) : Prop :=
  ∃ actions : List Action, (∀ action ∈ actions, action.service = some service) ∧
    Execution.run World.step world actions = next

namespace ReachedBy

variable {service : QpService} {world middle next : World}

theorem refl (service : QpService) (world : World) : ReachedBy service world world :=
  ⟨[], nofun, rfl⟩

theorem trans (first : ReachedBy service world middle)
    (second : ReachedBy service middle next) : ReachedBy service world next := by
  obtain ⟨before, beforeService, rfl⟩ := first
  obtain ⟨after, afterService, rfl⟩ := second
  refine ⟨before ++ after, fun action member => ?_, Execution.run_append _ _ _ _⟩
  rcases List.mem_append.mp member with member | member
  · exact beforeService action member
  · exact afterService action member

theorem single (action : Action) (same : action.service = some service)
    (step : world.step action = next) : ReachedBy service world next :=
  ⟨[action], fun other member => by rw [List.mem_singleton.mp member, same], step⟩

end ReachedBy

/-- A call changes no setting of the workers. -/
theorem step_fixed {service : QpService} (reachable : service.Reachable) {action : Action}
    (same : action.service = some service) (world : World) :
    Fixed world (world.step action) := by
  have admissible : Admissible (fun _ _ => True) world action := by
    refine ⟨fun other used => ?_, fun _ _ => trivial⟩
    rw [same] at used
    injection used with used
    exact used ▸ reachable
  exact (step_transitions admissible).invariant
    (fun _ _ transition fixed => fixed.transition transition) ⟨rfl, rfl, rfl, rfl⟩

section Run

variable {service : QpService} {view : WorkerQpView}

/-- A loop is a run if each of its calls is, as long as `holds`. -/
theorem Loop.reachedBy {call : World → Bool × World → Prop} {holds : World → Prop}
    (single : ∀ world result, holds world → call world result →
      ReachedBy service world result.2 ∧ holds result.2)
    {world : World} {result : Bool × World} (loop : Loop call world result)
    (start : holds world) : ReachedBy service world result.2 ∧ holds result.2 := by
  induction loop with
  | stop world next last => exact single world _ start last
  | again world middle next progressed first rest induction =>
      obtain ⟨reached, holds⟩ := single world _ start first
      obtain ⟨rest, holds⟩ := induction holds
      exact ⟨reached.trans rest, holds⟩

theorem responder_call (reachable : service.Reachable) {world : World} (action : Action)
    {result : Bool × World} (same : action.service = some service)
    (found : service.workerQpView world.responder.qpNum = .ok view)
    (step : world.step action = result.2) :
    ReachedBy service world result.2 ∧
      service.workerQpView result.2.responder.qpNum = .ok view := by
  refine ⟨.single action same step, ?_⟩
  rw [← step, (step_fixed reachable same world).responderQpNum]
  exact found

theorem requester_call (reachable : service.Reachable) {world : World} (action : Action)
    {result : Bool × World} (same : action.service = some service)
    (found : service.workerQpView world.requester.qpNum = .ok view)
    (step : world.step action = result.2) :
    ReachedBy service world result.2 ∧
      service.workerQpView result.2.requester.qpNum = .ok view := by
  refine ⟨.single action same step, ?_⟩
  rw [← step, (step_fixed reachable same world).requesterQpNum]
  exact found

theorem completionsCall_reachedBy (reachable : service.Reachable) (world : World)
    (result : Bool × World) (found : service.workerQpView world.responder.qpNum = .ok view)
    (call : CompletionsCall world result) :
    ReachedBy service world result.2 ∧
      service.workerQpView result.2.responder.qpNum = .ok view := by
  obtain ⟨completions, rfl⟩ := call
  refine responder_call reachable (.tryBackendCompletions service completions) rfl found ?_
  simp only [World.step, withView, found]

theorem flushCall_reachedBy (reachable : service.Reachable) (world : World)
    (result : Bool × World) (found : service.workerQpView world.responder.qpNum = .ok view)
    (call : FlushCall world result) :
    ReachedBy service world result.2 ∧
      service.workerQpView result.2.responder.qpNum = .ok view := by
  obtain ⟨accepted, rfl⟩ := call
  refine responder_call reachable (.tryFlushBackendRequests service accepted) rfl found ?_
  simp only [World.step, withView, found]

theorem parentResponse_reachedBy (reachable : service.Reachable) (world : World)
    (result : Bool × World) (found : service.workerQpView world.responder.qpNum = .ok view)
    (call : result = tryParentResponse view world) :
    ReachedBy service world result.2 ∧
      service.workerQpView result.2.responder.qpNum = .ok view := by
  refine responder_call reachable (.tryParentResponse service) rfl found ?_
  simp only [World.step, withView, found, call]

theorem request_reachedBy (reachable : service.Reachable) (world : World)
    (result : Bool × World) (found : service.workerQpView world.responder.qpNum = .ok view)
    (call : result = tryRequest service view world) :
    ReachedBy service world result.2 ∧
      service.workerQpView result.2.responder.qpNum = .ok view := by
  refine responder_call reachable (.tryRequest service) rfl found ?_
  simp only [World.step, withView, found, call]

theorem response_reachedBy (reachable : service.Reachable) (world : World)
    (result : Bool × World) (found : service.workerQpView world.requester.qpNum = .ok view)
    (call : result = tryResponse view world) :
    ReachedBy service world result.2 ∧
      service.workerQpView result.2.requester.qpNum = .ok view := by
  refine requester_call reachable (.tryResponse service) rfl found ?_
  simp only [World.step, withView, found, call]

theorem send_reachedBy (reachable : service.Reachable) (world : World)
    (result : Bool × World) (found : service.workerQpView world.requester.qpNum = .ok view)
    (call : result = trySend service view world) :
    ReachedBy service world result.2 ∧
      service.workerQpView result.2.requester.qpNum = .ok view := by
  refine requester_call reachable (.trySend service) rfl found ?_
  simp only [World.step, withView, found, call]

theorem takeRequests_reachedBy (reachable : service.Reachable) {world : World}
    {result : Bool × World} (found : service.workerQpView world.responder.qpNum = .ok view)
    (takes : TakeRequests service view world result) :
    ReachedBy service world result.2 ∧
      service.workerQpView result.2.responder.qpNum = .ok view := by
  unfold TakeRequests at takes
  split at takes
  · obtain ⟨taken, flushed, loop, flush, rfl⟩ := takes
    obtain ⟨first, found⟩ := loop.reachedBy (request_reachedBy reachable) found
    obtain ⟨second, found⟩ := flushCall_reachedBy reachable _ _ found flush
    exact ⟨first.trans second, found⟩
  · rw [takes]
    exact ⟨.refl service world, found⟩

/-- One call of `progress_once` is a run of actions in one control state. -/
theorem progressOnce_reachedBy (reachable : service.Reachable) {role : LoopWorkerRole}
    {world : World} {result : Bool × World}
    (progress : ProgressOnce service role world result) :
    ReachedBy service world result.2 := by
  cases role with
  | responder =>
      simp only [ProgressOnce] at progress
      split at progress
      · rw [progress]
        exact .refl service world
      · rename_i view found
        obtain ⟨popped, answered, flushed, taken, poppedAgain, answeredAgain, pop, answer, flush,
          take, popAgain, answerAgain, rfl⟩ := progress
        obtain ⟨first, found⟩ := pop.reachedBy (completionsCall_reachedBy reachable) found
        obtain ⟨second, found⟩ := answer.reachedBy (parentResponse_reachedBy reachable) found
        obtain ⟨third, found⟩ := flushCall_reachedBy reachable _ _ found flush
        obtain ⟨fourth, found⟩ := takeRequests_reachedBy reachable found take
        obtain ⟨fifth, found⟩ := popAgain.reachedBy (completionsCall_reachedBy reachable) found
        obtain ⟨sixth, -⟩ := answerAgain.reachedBy (parentResponse_reachedBy reachable) found
        exact first.trans (second.trans (third.trans (fourth.trans (fifth.trans sixth))))
  | requester =>
      simp only [ProgressOnce] at progress
      split at progress
      · rw [progress]
        exact .refl service world
      · rename_i view found
        obtain ⟨answered, sent, answer, send, rfl⟩ := progress
        obtain ⟨first, found⟩ := answer.reachedBy (response_reachedBy reachable) found
        obtain ⟨second, -⟩ := send.reachedBy (send_reachedBy reachable) found
        exact first.trans second

end Run

end Ugdr.Worker
