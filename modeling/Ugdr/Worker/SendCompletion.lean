import Ugdr.Worker.Wraparound

/-! # Completion of send WRs

Every send WQE that leaves its queue is accounted for once: it failed with one error
completion, or it became one parent, which the first response to its request id
completes. A request id comes back after `2 ^ 32 - 1` parents, and then so do the
effects of a response to it.
-/

namespace Ugdr.Worker

open Ugdr.Queue Ugdr.Control
open Ugdr.Control.QpService (WorkerQpView)

variable {permitted : World → Event → Prop} {world next : World}

namespace Event

/-- What became of a WQE: the request id that entered `requester_inflight_` for it, or
none if `complete_send_error` completed it. -/
@[simp] def fate? : Event → Option (SendWqe × Option Nat)
  | .issued _ _ wqe parent => some (wqe, some parent.parentRequestId)
  | .failed wqe _ => some (wqe, none)
  | _ => none

/-- A WQE that leaves the send queue, and whether it was sent. -/
@[simp] def departure? : Event → Option (SendWqe × Bool)
  | .released wqe => some (wqe, true)
  | .failed wqe _ => some (wqe, false)
  | _ => none

end Event

namespace World

def fates (world : World) : List (SendWqe × Option Nat) :=
  world.trace.filterMap Event.fate?

def departures (world : World) : List (SendWqe × Bool) :=
  world.trace.filterMap Event.departure?

/-- The WQE whose datagrams are being sent. -/
def held (world : World) : List SendWqe :=
  match world.requester.pendingSend with
  | none => []
  | some _ => world.sendQueue.items.take 1

theorem departures_fst (world : World) : world.departures.map Prod.fst = world.released := by
  rw [departures, released, List.map_filterMap]
  congr 1
  funext event
  cases event <;> rfl

end World

/-! ## One fate for each WQE -/

/-- The WQEs with a fate are those that left the queue, each in the way that its fate
says, and the one that is being sent. -/
def FatesAccounted (world : World) : Prop :=
  world.fates.map (fun fate => (fate.1, fate.2.isSome)) =
    world.departures ++ world.held.map fun wqe => (wqe, true)

theorem FatesAccounted.transition (accounted : FatesAccounted world)
    (queue : QueueAccounted world) (transition : Transition permitted world next) :
    FatesAccounted next := by
  rcases transition with transition | transition
  case inr =>
    have frame := transition.senderFrame
    have fates : next.fates = world.fates :=
      frame.filterMap fun event foreign => by cases event <;> first | rfl | cases foreign
    have departures : next.departures = world.departures :=
      frame.filterMap fun event foreign => by cases event <;> first | rfl | cases foreign
    rw [FatesAccounted, fates, departures, World.held, frame.requester, frame.sendQueue]
    exact accounted
  simp only [FatesAccounted, World.fates, World.departures, World.held] at accounted
  cases transition with
  | pollSend | foreignSend | collide | loadResponse | ignore | answer =>
      simpa [FatesAccounted, World.fates, World.departures, World.held] using accounted
  | post wqe =>
      cases pending : world.requester.pendingSend with
      | none =>
          simpa [FatesAccounted, World.fates, World.departures, World.held, pending]
            using accounted
      | some parent =>
          obtain ⟨-, first, rest, items, -⟩ := queue.busy parent pending
          simpa [FatesAccounted, World.fates, World.departures, World.held, pending, items]
            using accounted
  | fail service view wqe rest status idle =>
      simpa [FatesAccounted, World.fates, World.departures, World.held, idle] using accounted
  | issue service view wqe rest gathered parent idle peeked items =>
      simpa [FatesAccounted, World.fates, World.departures, World.held, idle, items]
        using accounted
  | push parent pending =>
      simpa [FatesAccounted, World.fates, World.departures, World.held, pending]
        using accounted
  | pushLast parent pending =>
      obtain ⟨-, first, rest, items, -⟩ := queue.busy parent pending
      simpa [FatesAccounted, World.fates, World.departures, World.held, pending, items,
        List.filterMap_cons] using accounted

/-- Every issued parent is the one built from its WQE, which passed the checks. -/
def ParentsBuilt (world : World) : Prop :=
  ∀ service view wqe parent, .issued service view wqe parent ∈ world.trace →
    ∃ requestId gathered,
      inspectSend service view world.requester.payloadBytes wqe = .ok gathered ∧
        parent = pendingSendOf view requestId wqe gathered

theorem ParentsBuilt.transition (built : ParentsBuilt world)
    (transition : Transition permitted world next) : ParentsBuilt next := by
  intro service view wqe parent member
  rcases transition with transition | transition
  case inr =>
    have frame := transition.senderFrame
    obtain ⟨events, trace, foreign⟩ := frame.trace
    rw [frame.requester]
    rw [trace] at member
    rcases List.mem_append.mp member with member | member
    · exact built service view wqe parent member
    · cases foreign _ member
  cases transition with
  | collide | loadResponse => exact built service view wqe parent member
  | post | pollSend | foreignSend | fail | push | pushLast | ignore | answer =>
      exact built service view wqe parent (by simpa using member)
  | issue other otherView otherWqe rest gathered issued idle peeked items inspected same =>
      rcases List.mem_append.mp member with member | member
      · exact built service view wqe parent member
      · cases List.mem_singleton.mp member
        exact ⟨_, gathered, inspected, same⟩

/-! ## Runs -/

/-- Every send WQE is completed once. -/
structure SendsCompletedOnce (world : World) : Prop where
  /-- The WQEs leave the queue in posting order. -/
  posted : world.posted = world.departures.map Prod.fst ++ world.sendQueue.items
  /-- Each of them has one fate: it failed, or it was issued and all of it sent. -/
  fates : world.fates.map (fun fate => (fate.1, fate.2.isSome)) =
    world.departures ++ world.held.map fun wqe => (wqe, true)
  /-- A failure publishes one entry, which reports an error of the WQE. -/
  failed : ∀ wqe entry, .failed wqe entry ∈ world.trace →
    entry.wrId = wqe.header.wrId ∧ entry.status ≠ wcSuccess ∧
      entry.qpNum = world.requester.qpNum
  issued : ParentsBuilt world
  /-- Only issued parents send datagrams. -/
  sent : world.sent ++ world.unsent =
    world.issued.flatMap (PendingSend.datagrams world.requester.payloadBytes)
  inflight : ∀ requestId, world.requester.requesterInflight requestId =
    (openParent requestId world.trace).map PendingSend.inflight
  /-- A response completes the parent that is open under its id. If there is none, because
  the id was never issued or was answered since, the response does nothing. -/
  answers : Trace.Every (fun before event => ∀ response answer,
    event = .consumed response answer →
      answer = (openParent response.parentRequestId before).map
        (answerOf world.requester.qpNum world.requester.observer response)) world.trace
  /-- What was published is polled in order. -/
  published : world.published = world.polledSend ++ world.sendCq.items

/-- Over every run of the requester, whatever responses arrive and whichever calls are
refused, every send WQE is completed once. -/
theorem sends_completed_once {configuration : World.Configuration} {actions : List Action}
    (admissible : Execution.Along World.step (Admissible fun _ _ => True)
      (World.initial configuration) actions) :
    SendsCompletedOnce (Execution.run World.step (World.initial configuration) actions) := by
  have accounted := run_accounted admissible
  obtain ⟨-, fates, built⟩ := @run_invariant _
    (fun world => SendWrsAccounted world ∧ FatesAccounted world ∧ ParentsBuilt world)
    (fun _ _ transition holds => ⟨holds.1.transition transition,
      holds.2.1.transition holds.1.queue transition, holds.2.2.transition transition⟩)
    _ ⟨initial_accounted configuration, rfl,
      fun _ _ _ _ member => absurd member List.not_mem_nil⟩ _ admissible
  constructor
  · rw [World.departures_fst]
    exact accounted.queue.posted
  · exact fates
  · exact accounted.completions.failures
  · exact built
  · exact accounted.stream.sent
  · exact accounted.responses.inflight
  · exact accounted.responses.answers
  · exact accounted.completions.published

theorem sends_completed_once_refusedWrite :
    (Execution.run World.step (World.initial Loopback.configuration)
        Loopback.refusedWrite).polledSend = [Loopback.refusedEntry] ∧
      SendsCompletedOnce (Execution.run World.step (World.initial Loopback.configuration)
        Loopback.refusedWrite) := by
  refine ⟨by decide +kernel, sends_completed_once ?_⟩
  exact Loopback.along_refusedWrite (fun _ _ _ _ _ => trivial) 1 []

/-! ## A request id that comes back -/

/-- Once a response has completed a parent, later responses to its request id do
nothing. -/
def LaterResponsesIgnored (trace : List Event) : Prop :=
  Trace.Every (fun before event => ∀ response answer, event = .consumed response answer →
    (∃ earlier answered, .consumed earlier (some answered) ∈ before ∧
      earlier.parentRequestId = response.parentRequestId) → answer = none) trace

namespace Loopback

open Ugdr.Control.Loopback

/-- As many refused writes as there are sequences, and one more. -/
def repeatedId : List Action :=
  refusedWrite ++ refusedWrites (2 ^ 32 - 2) ++ refusedWrite

theorem refusedWrites_from_two :
    LoopWorker.followingSequence^[2 ^ 32 - 2] (LoopWorker.followingSequence 1) = 1 := by
  rw [← Function.iterate_succ_apply]
  exact followingSequence_wraps

theorem run_repeatedId {permitted : World → Event → Prop}
    (restricts : RestrictsOthers permitted) :
    Execution.Along World.step (Admissible permitted) (World.initial configuration)
        repeatedId ∧
      ∃ events, Execution.run World.step (World.initial configuration) repeatedId =
        idle (LoopWorker.followingSequence 1)
          (refusedEvents 1 ++ events ++ refusedEvents 1) := by
  have start : World.initial configuration = idle 1 [] := rfl
  obtain ⟨along, events, run⟩ := run_refusedWrites restricts (2 ^ 32 - 2)
    (LoopWorker.followingSequence 1) (refusedEvents 1)
  rw [refusedWrites_from_two] at run
  have first : Execution.run World.step (World.initial configuration) refusedWrite =
      idle (LoopWorker.followingSequence 1) (refusedEvents 1) := by
    rw [start, run_refusedWrite, List.nil_append]
  simp only [repeatedId, Execution.along_append, Execution.run_append, first, run,
    run_refusedWrite]
  exact ⟨⟨⟨along_refusedWrite restricts 1 [], along⟩,
    along_refusedWrite restricts 1 _⟩, events, rfl⟩

end Loopback

theorem laterResponses_not_ignored :
    ¬∀ configuration actions,
      Execution.Along World.step (Admissible fun _ _ => True)
        (World.initial configuration) actions →
      LaterResponsesIgnored
        (Execution.run World.step (World.initial configuration) actions).trace := by
  intro ignored
  obtain ⟨along, events, run⟩ := @Loopback.run_repeatedId (fun _ _ => True)
    (fun _ _ _ _ _ => trivial)
  have ignores := ignored _ _ along
  rw [run] at ignores
  -- The response of the last write answers the id that the first write had.
  have last := ignores
    (Loopback.refusedEvents 1 ++ events ++ ([.posted Loopback.emptyWrite] ++
      Loopback.sendEvents 1 ++ Loopback.refuseEvents 1))
    (.consumed (Loopback.refusal 1) (some (Loopback.refusedAnswer 1)))
    [.polledSend Loopback.refusedEntry]
    (by simp [Loopback.idle, Loopback.refusedEvents])
    (Loopback.refusal 1) (some (Loopback.refusedAnswer 1)) rfl
    ⟨Loopback.refusal 1, Loopback.refusedAnswer 1,
      by simp [Loopback.refusedEvents], rfl⟩
  cases last

end Ugdr.Worker
