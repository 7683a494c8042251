import Ugdr.Worker.History
import Ugdr.Worker.Refinement

/-! # Accounting of send WRs

What becomes of every WQE of a send queue over a run of the requester, whatever
responses arrive: a WQE leaves the queue with an error completion or as a parent,
and the first response to a parent completes it.
-/

namespace Ugdr.Worker

open Ugdr.Queue Ugdr.Control
open Ugdr.Control.QpService (WorkerQpView)

variable {permitted : World → Event → Prop} {world next start : World}

/-- The settings of the workers, which no call changes. -/
structure Fixed (start world : World) : Prop where
  requesterQpNum : world.requester.qpNum = start.requester.qpNum
  responderQpNum : world.responder.qpNum = start.responder.qpNum
  payloadBytes : world.requester.payloadBytes = start.requester.payloadBytes
  observer : world.requester.observer = start.requester.observer

theorem Fixed.transition (fixed : Fixed start world)
    (transition : Transition permitted world next) : Fixed start next := by
  obtain ⟨requester, responder, payloadBytes, observer⟩ := fixed
  rcases transition with transition | transition <;> cases transition <;>
    exact ⟨requester, responder, payloadBytes, observer⟩

/-! ## The send queue -/

/-- Every WQE that left the queue was started, in posting order; the one at the head
is started when a parent is pending. -/
structure QueueAccounted (world : World) : Prop where
  posted : world.posted = world.released ++ world.sendQueue.items
  idle : world.requester.pendingSend = none → world.started = world.released
  busy : ∀ parent, world.requester.pendingSend = some parent →
    world.sendQueue.peeked = 1 ∧
      ∃ wqe rest, world.sendQueue.items = wqe :: rest ∧ world.started = world.released ++ [wqe]

theorem QueueAccounted.frame (accounted : QueueAccounted world)
    (frame : SenderFrame world next) : QueueAccounted next := by
  have posted : next.posted = world.posted :=
    frame.filterMap fun event foreign => by cases event <;> first | rfl | cases foreign
  have released : next.released = world.released :=
    frame.filterMap fun event foreign => by cases event <;> first | rfl | cases foreign
  have started : next.started = world.started :=
    frame.filterMap fun event foreign => by cases event <;> first | rfl | cases foreign
  constructor
  · rw [posted, released, frame.sendQueue]
    exact accounted.posted
  · rw [started, released, frame.requester]
    exact accounted.idle
  · rw [started, released, frame.requester, frame.sendQueue]
    exact accounted.busy

theorem QueueAccounted.transition (accounted : QueueAccounted world)
    (transition : Transition permitted world next) : QueueAccounted next := by
  rcases transition with transition | transition
  case inr => exact accounted.frame transition.senderFrame
  obtain ⟨posted, idle, busy⟩ := accounted
  simp only [World.posted, World.released, World.started] at posted idle busy
  cases transition with
  | pollSend | foreignSend | loadResponse | ignore | answer =>
      constructor <;>
        simpa only [World.posted, World.released, World.started, List.filterMap_append,
          List.filterMap_cons, List.filterMap_nil, List.append_nil, Event.posted?,
          Event.released?, Event.started?]
  | post wqe =>
      constructor <;>
        simp only [World.posted, World.released, World.started, List.filterMap_append,
          List.filterMap_cons, List.filterMap_nil, List.append_nil, Event.posted?,
          Event.released?, Event.started?]
      · rw [posted, List.append_assoc]
      · exact idle
      · intro parent pending
        obtain ⟨peeked, first, rest, items, started⟩ := busy parent pending
        exact ⟨peeked, first, rest ++ [wqe], by rw [items, List.cons_append], started⟩
  | collide _ none =>
      refine ⟨posted, idle, fun parent pending => ?_⟩
      rw [none] at pending
      cases pending
  | fail service view wqe rest status none peeked items =>
      constructor <;>
        simp only [World.posted, World.released, World.started, List.filterMap_append,
          List.filterMap_cons, List.filterMap_nil, List.append_nil, Event.posted?,
          Event.released?, Event.started?]
      · rw [posted, items, List.append_assoc, List.singleton_append]
      · intro _
        rw [idle none]
      · intro parent pending
        rw [none] at pending
        cases pending
  | issue service view wqe rest gathered parent none peeked items =>
      constructor <;>
        simp only [World.posted, World.released, World.started, List.filterMap_append,
          List.filterMap_cons, List.filterMap_nil, List.append_nil, Event.posted?,
          Event.released?, Event.started?]
      · exact posted
      · rintro ⟨⟩
      · exact fun _ _ => ⟨trivial, wqe, rest, items, by rw [idle none]⟩
  | push parent pending =>
      constructor <;>
        simp only [World.posted, World.released, World.started, List.filterMap_append,
          List.filterMap_cons, List.filterMap_nil, List.append_nil, Event.posted?,
          Event.released?, Event.started?]
      · exact posted
      · rintro ⟨⟩
      · exact fun _ _ => busy parent pending
  | pushLast parent pending =>
      obtain ⟨-, wqe, rest, items, started⟩ := busy parent pending
      constructor <;>
        simp only [World.posted, World.released, World.started, List.filterMap_append,
          List.filterMap_cons, List.filterMap_nil, List.append_nil, Event.posted?,
          Event.released?, Event.started?, items, List.head?_cons, Option.map_some,
          Option.toList_some, List.drop_one, List.tail_cons]
      · rw [posted, items, List.append_assoc, List.singleton_append]
      · exact fun _ => started
      · rintro _ ⟨⟩

/-! ## Datagrams -/

/-- The datagrams sent and those the pending parent has still to send are the
datagrams of the issued parents, in order. -/
structure StreamAccounted (world : World) : Prop where
  positive : 0 < world.requester.payloadBytes
  pending : ∀ parent, world.requester.pendingSend = some parent →
    parent.Pending world.requester.payloadBytes
  built : ∀ parent ∈ world.issued, parent.Built world.requester.payloadBytes
  sent : world.sent ++ world.unsent =
    world.issued.flatMap (PendingSend.datagrams world.requester.payloadBytes)

theorem StreamAccounted.frame (accounted : StreamAccounted world)
    (frame : SenderFrame world next) : StreamAccounted next := by
  have issued : next.issued = world.issued :=
    frame.filterMap fun event foreign => by cases event <;> first | rfl | cases foreign
  have sent : next.sent = world.sent :=
    frame.filterMap fun event foreign => by cases event <;> first | rfl | cases foreign
  constructor
  · rw [frame.requester]
    exact accounted.positive
  · rw [frame.requester]
    exact accounted.pending
  · rw [issued, frame.requester]
    exact accounted.built
  · rw [sent, issued, World.unsent, frame.requester]
    exact accounted.sent

/-- The only parent that is pending is the one at the head of a peeked send queue. -/
theorem StreamAccounted.transition (accounted : StreamAccounted world)
    (queue : QueueAccounted world) (transition : Transition permitted world next) :
    StreamAccounted next := by
  rcases transition with transition | transition
  case inr => exact accounted.frame transition.senderFrame
  obtain ⟨positive, pendings, built, sent⟩ := accounted
  simp only [World.issued, World.sent, World.unsent] at built sent
  cases transition with
  | post | pollSend | foreignSend | collide | loadResponse | ignore | answer | fail =>
      constructor <;>
        simpa only [World.issued, World.sent, World.unsent, List.filterMap_append,
          List.filterMap_cons, List.filterMap_nil, List.append_nil, Event.issued?, Event.sent?]
  | issue service view wqe rest gathered parent none peeked items inspected same =>
      obtain ⟨fresh, -⟩ := inspectSend_spec positive inspected world.requester.nextRequestId
      rw [← same] at fresh
      rw [none, List.append_nil] at sent
      constructor <;>
        simp only [World.issued, World.sent, World.unsent, List.filterMap_append,
          List.filterMap_cons, List.filterMap_nil, List.append_nil, Event.issued?, Event.sent?]
      · exact positive
      · rintro other ⟨⟩
        exact fresh.pending
      · intro other member
        rcases List.mem_append.mp member with member | member
        · exact built other member
        · rw [List.mem_singleton.mp member]
          exact fresh
      · rw [sent, List.flatMap_append, List.flatMap_singleton]
  | push parent pending more =>
      obtain ⟨peeked, -⟩ := queue.busy parent pending
      obtain ⟨split, -, unfinished⟩ := (pendings parent pending).step
      have rest := unfinished (more.resolve_right (by omega))
      simp only [pending, split] at sent
      constructor <;>
        simp only [World.issued, World.sent, World.unsent, List.filterMap_append,
          List.filterMap_cons, List.filterMap_nil, List.append_nil, Event.issued?, Event.sent?]
      · exact positive
      · rintro other ⟨⟩
        exact rest
      · exact built
      · rw [← sent, List.append_assoc, List.singleton_append]
  | pushLast parent pending last =>
      obtain ⟨-, wqe, rest, items, -⟩ := queue.busy parent pending
      obtain ⟨split, finished, -⟩ := (pendings parent pending).step
      simp only [pending, split, finished last] at sent
      constructor <;>
        simp only [World.issued, World.sent, World.unsent, List.filterMap_append,
          List.filterMap_cons, List.filterMap_nil, List.append_nil, Event.issued?, Event.sent?,
          items, List.head?_cons, Option.map_some, Option.toList_some]
      · exact positive
      · rintro _ ⟨⟩
      · exact built
      · exact sent

/-- The segments of every issued parent are the entries of its WQE, resolved in the
control state in which it was issued. -/
def SegmentsResolved (world : World) : Prop :=
  ∀ service view wqe parent, .issued service view wqe parent ∈ world.trace →
    List.Forall₂
      (ResolvesTo fun sge => service.resolveLkey view.sessionId view.pdIdentity sge.lkey
        sge.address sge.length)
      wqe.sgeList parent.sourceSegments

theorem SegmentsResolved.transition (resolved : SegmentsResolved world)
    (accounted : StreamAccounted world) (transition : Transition permitted world next) :
    SegmentsResolved next := by
  intro service view wqe parent member
  rcases transition with transition | transition
  case inr =>
    obtain ⟨events, trace, foreign⟩ := transition.senderFrame.trace
    rw [trace] at member
    rcases List.mem_append.mp member with member | member
    · exact resolved service view wqe parent member
    · cases foreign _ member
  cases transition with
  | collide | loadResponse => exact resolved service view wqe parent member
  | post | pollSend | foreignSend | fail | push | ignore | answer =>
      rcases List.mem_append.mp member with member | member
      · exact resolved service view wqe parent member
      · cases List.mem_singleton.mp member
  | pushLast pushed pending =>
      rcases List.mem_append.mp member with member | member
      · rcases List.mem_append.mp member with member | member
        · exact resolved service view wqe parent member
        · cases List.mem_singleton.mp member
      · obtain ⟨other, -, same⟩ := Option.map_eq_some_iff.mp (Option.mem_toList.mp member)
        cases same
  | issue other otherView otherWqe rest gathered built idle peeked items inspected same =>
      rcases List.mem_append.mp member with member | member
      · exact resolved service view wqe parent member
      · cases List.mem_singleton.mp member
        rw [same]
        exact (inspectSend_spec accounted.positive inspected _).2

/-! ## Responses -/

/-- The in-flight map holds the parents that are issued and not yet answered, and
every response consumed so far did what it should for the parent open at the time. -/
structure ResponsesAccounted (world : World) : Prop where
  inflight : ∀ requestId, world.requester.requesterInflight requestId =
    (openParent requestId world.trace).map PendingSend.inflight
  answers : Trace.Every (fun before event => ∀ response answer,
    event = .consumed response answer →
      answer = (openParent response.parentRequestId before).map
        (answerOf world.requester.qpNum world.requester.observer response)) world.trace

/-- Only the requester's events open or close a parent. -/
theorem openParent_append_of_foreign {trace events : List Event} (requestId : Nat)
    (foreign : ∀ event ∈ events, event.bySender = false) :
    openParent requestId (trace ++ events) = openParent requestId trace := by
  induction events using List.reverseRecOn with
  | nil => rw [List.append_nil]
  | append_singleton events event induction =>
      rw [← List.append_assoc, openParent_concat]
      have quiet := foreign event (by simp)
      rw [induction fun other member => foreign other (by simp [member])]
      cases event <;> first | rfl | cases quiet

theorem ResponsesAccounted.frame (accounted : ResponsesAccounted world)
    (frame : SenderFrame world next) : ResponsesAccounted next := by
  obtain ⟨events, trace, foreign⟩ := frame.trace
  constructor
  · intro requestId
    rw [frame.requester, trace, openParent_append_of_foreign requestId foreign]
    exact accounted.inflight requestId
  · rw [frame.requester, trace]
    refine Trace.every_append accounted.answers ?_
    rintro before event member response answer rfl
    cases foreign _ member

theorem ResponsesAccounted.transition (accounted : ResponsesAccounted world)
    (transition : Transition permitted world next) : ResponsesAccounted next := by
  rcases transition with transition | transition
  case inr => exact accounted.frame transition.senderFrame
  obtain ⟨inflight, answers⟩ := accounted
  cases transition with
  | collide | loadResponse => exact ⟨inflight, answers⟩
  | post | pollSend | foreignSend | push | fail =>
      refine ⟨fun requestId => ?_, Trace.every_concat.mpr ⟨answers, nofun⟩⟩
      rw [openParent_concat]
      exact inflight requestId
  | pushLast parent pending last =>
      have sent : ResponsesAccounted
          { world with
            trace :=
              world.trace ++ [.sent (parent.datagram world.requester.payloadBytes)] } := by
        refine ⟨fun requestId => ?_, Trace.every_concat.mpr ⟨answers, nofun⟩⟩
        rw [openParent_concat]
        exact inflight requestId
      cases world.sendQueue.items.head? with
      | none =>
          rw [Option.map_none, Option.toList_none, List.append_nil]
          exact ⟨sent.inflight, sent.answers⟩
      | some wqe =>
          refine ⟨fun requestId => ?_, Trace.every_concat.mpr ⟨sent.answers, nofun⟩⟩
          rw [Option.map_some, Option.toList_some, openParent_concat]
          exact sent.inflight requestId
  | issue service view wqe rest gathered parent none peeked items inspected same qpNum absent =>
      refine ⟨fun requestId => ?_, Trace.every_concat.mpr ⟨answers, nofun⟩⟩
      rw [openParent_concat]
      by_cases own : parent.parentRequestId = requestId
      · subst own
        simp
      · simp only [if_neg own, Function.update_of_ne (Ne.symm own)]
        exact inflight requestId
  | ignore response pending absent =>
      have closed : openParent response.parentRequestId world.trace = none := by
        have same := inflight response.parentRequestId
        rw [absent] at same
        exact Option.map_eq_none_iff.mp same.symm
      refine ⟨fun requestId => ?_, Trace.every_concat.mpr ⟨answers, ?_⟩⟩
      · rw [openParent_concat]
        simp only
        split
        · rename_i own
          subst own
          exact absent
        · exact inflight requestId
      · rintro other answer ⟨⟩
        rw [closed]
        rfl
  | answer response entry answer pending found answered =>
      obtain ⟨parent, opened, same⟩ :
          ∃ parent, openParent response.parentRequestId world.trace = some parent ∧
            parent.inflight = entry := by
        have same := inflight response.parentRequestId
        rw [found] at same
        exact Option.map_eq_some_iff.mp same.symm
      refine ⟨fun requestId => ?_, Trace.every_concat.mpr ⟨answers, ?_⟩⟩
      · rw [openParent_concat]
        simp only
        split
        · rename_i own
          subst own
          exact Function.update_self _ _ _
        · rename_i own
          rw [Function.update_of_ne (Ne.symm own)]
          exact inflight requestId
      · rintro other given ⟨⟩
        rw [opened, answered, ← same]
        rfl

/-! ## Completions -/

theorem inspectSend_error_ne_success {service : QpService} {view : WorkerQpView}
    {payloadBytes : Nat} {wqe : SendWqe} {status : Nat}
    (failed : inspectSend service view payloadBytes wqe = .error status) :
    status ≠ wcSuccess := by
  have gathering : ∀ resolve gathered sges,
      gather resolve payloadBytes gathered sges = .error status → status ≠ wcSuccess := by
    intro resolve gathered sges
    induction sges generalizing gathered with
    | nil => nofun
    | cons sge sges induction =>
        intro failed
        rw [gather] at failed
        split at failed
        · cases failed
          decide
        · split at failed
          · cases failed
            decide
          · exact induction _ failed
  unfold inspectSend at failed
  split at failed
  · cases failed
    decide
  · split at failed
    · cases failed
      decide
    · split at failed
      · rename_i gathered
        cases failed
        exact gathering _ _ _ gathered
      · split at failed
        · cases failed
          decide
        · cases failed

/-- The send completion queue holds what was published and not yet polled, and the
entry of a failed WQE reports its error. -/
structure CompletionsAccounted (world : World) : Prop where
  published : world.published = world.polledSend ++ world.sendCq.items
  failures : ∀ wqe entry, .failed wqe entry ∈ world.trace →
    entry.wrId = wqe.header.wrId ∧ entry.status ≠ wcSuccess ∧
      entry.qpNum = world.requester.qpNum

theorem CompletionsAccounted.frame (accounted : CompletionsAccounted world)
    (frame : SenderFrame world next) : CompletionsAccounted next := by
  have published : next.published = world.published :=
    frame.filterMap fun event foreign => by cases event <;> first | rfl | cases foreign
  have polled : next.polledSend = world.polledSend :=
    frame.filterMap fun event foreign => by cases event <;> first | rfl | cases foreign
  constructor
  · rw [published, polled, frame.sendCq]
    exact accounted.published
  · obtain ⟨events, trace, foreign⟩ := frame.trace
    intro wqe entry member
    rw [frame.requester]
    rw [trace] at member
    rcases List.mem_append.mp member with member | member
    · exact accounted.failures wqe entry member
    · cases foreign _ member

theorem CompletionsAccounted.transition (accounted : CompletionsAccounted world)
    (queue : QueueAccounted world) (transition : Transition permitted world next) :
    CompletionsAccounted next := by
  rcases transition with transition | transition
  case inr => exact accounted.frame transition.senderFrame
  obtain ⟨published, failures⟩ := accounted
  simp only [World.published, World.polledSend] at published
  cases transition with
  | collide | loadResponse => exact ⟨published, failures⟩
  | post | issue | push | ignore =>
      constructor
      · simpa only [World.published, World.polledSend, List.filterMap_append,
          List.filterMap_cons, List.filterMap_nil, List.append_nil, Event.published?,
          Event.polledSend?]
      · simpa using failures
  | pushLast parent pending =>
      obtain ⟨-, wqe, rest, items, -⟩ := queue.busy parent pending
      rw [items]
      constructor
      · simpa only [World.published, World.polledSend, List.filterMap_append,
          List.filterMap_cons, List.filterMap_nil, List.append_nil, Event.published?,
          Event.polledSend?, List.head?_cons, Option.map_some, Option.toList_some]
      · simpa using failures
  | foreignSend entry =>
      constructor
      · simp only [World.published, World.polledSend, List.filterMap_append,
          List.filterMap_cons, List.filterMap_nil, List.append_nil, Event.published?,
          Event.polledSend?, published, List.append_assoc]
      · simpa using failures
  | pollSend entry rest items =>
      constructor
      · simp only [World.published, World.polledSend, List.filterMap_append,
          List.filterMap_cons, List.filterMap_nil, List.append_nil, Event.published?,
          Event.polledSend?, published, items, List.append_assoc, List.singleton_append]
      · simpa using failures
  | fail service view wqe rest status none peeked items inspected qpNum =>
      constructor
      · simp only [World.published, World.polledSend, List.filterMap_append,
          List.filterMap_cons, List.filterMap_nil, List.append_nil, Event.published?,
          Event.polledSend?, published, List.append_assoc]
      · intro other entry member
        rcases List.mem_append.mp member with member | member
        · exact failures other entry member
        · obtain ⟨rfl, rfl⟩ : other = wqe ∧ entry = sendErrorEntry view wqe status := by
            simpa using member
          exact ⟨rfl, inspectSend_error_ne_success inspected, qpNum⟩
  | answer response inflight answer pending found answered =>
      constructor
      · cases completion : answer.completion <;>
          simp [World.published, World.polledSend, Event.published?, Event.polledSend?,
            published, completion]
      · simpa using failures

/-! ## Runs -/

/-- Every send WQE is accounted for. A WQE that left the queue either failed, with one
error completion, or was issued as a parent, and only issued parents send datagrams.
A consumed response completes the parent that is open under its id: with a completion
entry if it failed or is signaled, and with one event for the observer. Without an
open parent it does nothing. -/
structure SendWrsAccounted (world : World) : Prop where
  queue : QueueAccounted world
  stream : StreamAccounted world
  segments : SegmentsResolved world
  responses : ResponsesAccounted world
  completions : CompletionsAccounted world

theorem initial_accounted (configuration : World.Configuration) :
    SendWrsAccounted (World.initial configuration) where
  queue := ⟨rfl, fun _ => rfl, nofun⟩
  stream := by
    refine ⟨?_, nofun, nofun, rfl⟩
    simp only [World.initial, LoopWorker.create]
    split
    · decide
    · omega
  segments := fun _ _ _ _ member => absurd member List.not_mem_nil
  responses := ⟨fun _ => rfl, Trace.every_nil⟩
  completions := ⟨rfl, fun _ _ member => absurd member List.not_mem_nil⟩

theorem SendWrsAccounted.transition (accounted : SendWrsAccounted world)
    (transition : Transition permitted world next) : SendWrsAccounted next where
  queue := accounted.queue.transition transition
  stream := accounted.stream.transition accounted.queue transition
  segments := accounted.segments.transition accounted.stream transition
  responses := accounted.responses.transition transition
  completions := accounted.completions.transition accounted.queue transition

theorem run_accounted {permitted : World → Event → Prop} {configuration : World.Configuration}
    {actions : List Action}
    (admissible : Execution.Along World.step (Admissible permitted)
      (World.initial configuration) actions) :
    SendWrsAccounted (Execution.run World.step (World.initial configuration) actions) :=
  run_invariant (fun _ _ transition accounted => accounted.transition transition)
    (initial_accounted configuration) admissible

end Ugdr.Worker
