import Ugdr.Worker.Transitions

/-! # Actions are sequences of transitions

Each call of a worker refines the transition system: what it does to the state is
a sequence of transitions, each permitted when the action is.
-/

namespace Ugdr.Worker

open Ugdr.Queue Ugdr.Control
open Ugdr.Control.QpService (WorkerQpView)

variable {permitted : World → Event → Prop} {world : World}

/-- Transitions append to the trace. -/
theorem Transition.trace_append {next : World} (transition : Transition permitted world next) :
    ∃ events, next.trace = world.trace ++ events := by
  rcases transition with transition | transition <;> cases transition <;>
    first
      | exact ⟨_, rfl⟩
      | exact ⟨[], (List.append_nil _).symm⟩
      | exact ⟨_, List.append_assoc _ _ _⟩

theorem Transitions.trace_append {next : World}
    (transitions : Transitions permitted world next) :
    ∃ events, next.trace = world.trace ++ events := by
  induction transitions with
  | refl => exact ⟨[], (List.append_nil _).symm⟩
  | tail _ last induction =>
      obtain ⟨events, before⟩ := induction
      obtain ⟨more, after⟩ := last.trace_append
      exact ⟨events ++ more, by rw [after, before, List.append_assoc]⟩

/-- A sequence of transitions of the requester's side. -/
abbrev SenderTransitions (permitted : World → Event → Prop) : World → World → Prop :=
  Relation.ReflTransGen (SenderTransition permitted)

theorem SenderTransitions.transitions {next : World}
    (transitions : SenderTransitions permitted world next) :
    Transitions permitted world next :=
  Relation.ReflTransGen.mono (fun _ _ => Or.inl) _ _ transitions

theorem mem_newEvents {action : Action} {event : Event} {before after : List Event}
    (trace : (world.step action).trace = world.trace ++ (before ++ event :: after)) :
    event ∈ world.newEvents action := by
  rw [World.newEvents, trace, List.drop_left]
  exact List.mem_append_right _ List.mem_cons_self

/-! ## Sending -/

theorem pushPayload_transitions {parent : PendingSend}
    (pending : world.requester.pendingSend = some parent) :
    SenderTransitions permitted world (pushPayload parent world).2 := by
  unfold pushPayload
  split
  · exact .refl
  · simp only
    split
    · exact .refl
    · rename_i transport pushed
      have queued : transport =
          { world.transport with
            requests :=
              world.transport.requests ++ [parent.datagram world.requester.payloadBytes] } := by
        unfold LocalTransport.tryPushRequest at pushed
        split at pushed
        · cases pushed
        · injection pushed with pushed
          exact pushed.symm
      subst queued
      split
      · rename_i unfinished
        exact .single (.push world parent pending (.inl unfinished))
      · rename_i finished
        rw [Bool.not_eq_false] at finished
        unfold Fifo.release
        split
        · rename_i result released
          split at released
          · rename_i closed
            exact .single (.push world parent pending (.inr (by omega)))
          · cases released
        · rename_i result sendQueue released
          split at released
          · cases released
          · injection released with released
            subst released
            exact .single (.pushLast world parent pending finished)

/-- The two outcomes of `complete_send_error` on a peeked WQE. -/
theorem completeSendError_eq (view : WorkerQpView) {wqe : SendWqe} (status : Nat)
    (closed : world.sendQueue.peeked = 0) {rest : List SendWqe}
    (items : world.sendQueue.items = wqe :: rest) :
    (completeSendError view wqe status { world.sendQueue with peeked := 1 } world).2 = world ∨
      (completeSendError view wqe status { world.sendQueue with peeked := 1 } world).2 =
        { world with
          sendQueue := { world.sendQueue with items := rest }
          sendCq :=
            { world.sendCq with
              items := world.sendCq.items ++ [sendErrorEntry view wqe status] }
          trace := world.trace ++ [.failed wqe (sendErrorEntry view wqe status)] } := by
  unfold completeSendError
  simp only
  split
  · refine .inl ?_
    rw [Fifo.release_of_peeked rfl (Nat.zero_le 1), List.drop_zero, ← closed]
  · rename_i sendCq produced
    refine .inr ?_
    obtain ⟨-, rfl⟩ := Fifo.produce_eq_ok produced
    rw [Fifo.release_of_peeked rfl (Nat.le_refl 1)]
    simp only [items, List.drop_one, List.tail_cons, closed]

/-- What the first half of `try_send` can do. -/
theorem loadSend_cases (permitted : World → Event → Prop) (service : QpService)
    {view : WorkerQpView} (idle : world.requester.pendingSend = none)
    (qpNum : view.qpNum = world.requester.qpNum) :
    (∃ result, loadSend service view world = .error result ∧
      (result.2 = world ∨
        result.2 = { world with sendQueue := { world.sendQueue with peeked := 1 } } ∧
          world.sendQueue.peeked = 0 ∨
        ∃ wqe entry, (permitted world (.failed wqe entry) →
            SenderTransition permitted world result.2) ∧
          result.2.trace = world.trace ++ [.failed wqe entry])) ∨
      ∃ next wqe parent, loadSend service view world = .ok next ∧
        next.requester.pendingSend = some parent ∧
        next.trace = world.trace ++ [.issued service view wqe parent] ∧
        (permitted world (.issued service view wqe parent) →
          SenderTransition permitted world next) := by
  unfold loadSend
  cases peeked : world.sendQueue.peek with
  | error status => exact .inl ⟨_, rfl, .inl rfl⟩
  | ok found =>
      obtain ⟨wqe, sendQueue⟩ := found
      obtain ⟨closed, head, rfl⟩ := Fifo.peek_eq_ok peeked
      obtain ⟨rest, items⟩ : ∃ rest, world.sendQueue.items = wqe :: rest := by
        cases items : world.sendQueue.items with
        | nil => rw [items] at head; cases head
        | cons first rest =>
            rw [items] at head
            injection head with head
            exact ⟨rest, by rw [head]⟩
      cases inspected : inspectSend service view world.requester.payloadBytes wqe with
      | error status =>
          simp only [inspected]
          refine .inl ⟨_, rfl, ?_⟩
          rcases completeSendError_eq view status closed items with same | failed
          · exact .inl same
          · refine .inr (.inr ⟨wqe, sendErrorEntry view wqe status, fun allowed => ?_, ?_⟩)
            · rw [failed]
              exact .fail world service view wqe rest status idle closed items inspected qpNum
                allowed
            · rw [failed]
      | ok gathered =>
          simp only [inspected]
          cases collides : world.requester.requesterInflight world.requester.nextRequestId with
          | some other => exact .inl ⟨_, rfl, .inr (.inl ⟨rfl, closed⟩)⟩
          | none =>
              refine .inr ⟨_, wqe, _, rfl, rfl, rfl, fun allowed => ?_⟩
              exact .issue world service view wqe rest gathered _ idle closed items inspected rfl
                qpNum collides allowed

theorem trySend_transitions {service : QpService} {view : WorkerQpView}
    (qpNum : view.qpNum = world.requester.qpNum)
    (allowed : ∀ event before after,
      (trySend service view world).2.trace = world.trace ++ (before ++ event :: after) →
        permitted world event) :
    SenderTransitions permitted world (trySend service view world).2 := by
  unfold trySend at allowed ⊢
  cases pending : world.requester.pendingSend with
  | some parent => exact pushPayload_transitions pending
  | none =>
      simp only [pending] at allowed ⊢
      rcases loadSend_cases permitted service pending qpNum with
        ⟨result, loaded, outcome⟩ | ⟨next, wqe, parent, loaded, nextPending, trace, issue⟩
      · rw [loaded] at allowed ⊢
        simp only at allowed ⊢
        rcases outcome with same | ⟨stuck, closed⟩ | ⟨wqe, entry, fail, trace⟩
        · rw [same]
        · rw [stuck]
          exact .single (.collide world closed pending)
        · exact .single (fail (allowed _ [] [] (by rw [trace]; rfl)))
      · rw [loaded] at allowed ⊢
        simp only [nextPending] at allowed ⊢
        have pushes : SenderTransitions permitted next (pushPayload parent next).2 :=
          pushPayload_transitions nextPending
        obtain ⟨events, pushed⟩ := pushes.transitions.trace_append
        exact .head (issue (allowed _ [] events (by rw [pushed, trace, List.append_assoc]; rfl)))
          pushes

/-! ## Consuming responses -/

theorem consumeResponse_transitions {view : WorkerQpView} {loaded : Bool}
    {response : ResponseDatagram} (qpNum : view.qpNum = world.requester.qpNum)
    (pending : world.requester.pendingResponse = some response) :
    SenderTransitions permitted world (consumeResponse view loaded response world).2 := by
  unfold consumeResponse
  split
  · rename_i absent
    exact .single (.ignore world response pending absent)
  · rename_i inflight found
    simp only
    split
    · rename_i needed
      split
      · exact .refl
      · rename_i sendCq produced
        obtain ⟨-, rfl⟩ := Fifo.produce_eq_ok produced
        have answered : SenderTransition permitted world _ :=
          .answer world response inflight _ pending found rfl
        rw [if_pos needed, ← qpNum] at answered
        exact .single answered
    · rename_i unneeded
      have answered : SenderTransition permitted world _ :=
        .answer world response inflight _ pending found rfl
      rw [if_neg unneeded, Option.toList_none, List.append_nil] at answered
      exact .single answered

theorem tryResponse_transitions {view : WorkerQpView}
    (qpNum : view.qpNum = world.requester.qpNum) :
    SenderTransitions permitted world (tryResponse view world).2 := by
  unfold tryResponse
  split
  · rename_i response pending
    exact consumeResponse_transitions qpNum pending
  · rename_i idle
    unfold LocalTransport.tryPopResponse
    cases responses : world.transport.responses with
    | nil => exact .refl
    | cons response rest =>
        exact .head (.loadResponse world response rest idle responses)
          (consumeResponse_transitions qpNum rfl)

/-! ## Handling requests -/

theorem consumeReceive_eq_ok {parent consumed : ResponderInflight}
    {queue released : Fifo ReceiveWqeHeader}
    (ok : consumeReceive parent queue = .ok (consumed, released)) :
    consumed = { parent with receiveConsumed := consumed.receiveConsumed } := by
  unfold consumeReceive at ok
  split at ok
  · split at ok
    · cases ok
    · injection ok with ok
      injection ok with ok
      rw [← ok]
  · injection ok with ok
    injection ok with ok
    rw [← ok]

theorem acceptPayload_transitions {loaded : Bool} {request : RequestDatagram}
    {parent : ResponderInflight} (pending : world.responder.pendingRequest = some request)
    (addressed : Addressed world request)
    (found : world.responder.responderInflight request.parentRequestId = some parent) :
    Transitions permitted world (acceptPayload loaded request parent world).2 := by
  unfold acceptPayload
  split
  · rename_i invalid
    exact .single (.inr <| .invalidPayload world request parent pending addressed found invalid)
  · rename_i valid
    rw [Bool.not_eq_false] at valid
    split
    · rename_i zero
      split
      · exact .refl
      · rename_i consumed receiveQueue ok
        rw [consumeReceive_eq_ok ok]
        exact .single
          (.inr <| .zeroPayload world request parent _ receiveQueue pending found valid zero)
    · rename_i nonzero
      split
      · exact .refl
      · rename_i room
        simp only
        split
        · exact .refl
        · rename_i consumed receiveQueue ok
          rw [consumeReceive_eq_ok ok]
          exact .single
            (.inr <| .accept world request parent _ receiveQueue pending found valid nonzero room)

theorem rejectRequest_transitions {start : World} {loaded : Bool} {request : RequestDatagram}
    {result : DatagramResult} {disposal : Disposal} {resolution : List Event}
    (pending : world.responder.pendingRequest = some request)
    (reason : Rejects world request result disposal resolution)
    (order : start.responder.responderOrder = world.responder.responderOrder)
    (allowed : ∀ event before after,
      (rejectRequest loaded request result (resolution ++ [.disposed request disposal])
        world).2.trace = world.trace ++ (before ++ event :: after) → permitted start event) :
    Transitions permitted world
      (rejectRequest loaded request result (resolution ++ [.disposed request disposal])
        world).2 := by
  unfold rejectRequest LocalTransport.tryPushResponse at allowed ⊢
  simp only at allowed ⊢
  split at allowed
  · exact .refl
  · rename_i transport pushed
    split at pushed
    · cases pushed
    · injection pushed with pushed
      subst pushed
      refine .single
        (.inr <| .reject world start request result disposal resolution pending reason order
        (allowed _ resolution
          [.responded { parentRequestId := request.parentRequestId, result }] ?_))
      simp only [List.append_assoc]
      rfl

theorem admitRequest_transitions {start : World} {service : QpService} {view : WorkerQpView}
    {loaded : Bool} {request : RequestDatagram}
    (pending : world.responder.pendingRequest = some request)
    (addressed : Addressed world request)
    (absent : world.responder.responderInflight request.parentRequestId = none)
    (order : start.responder.responderOrder = world.responder.responderOrder)
    (allowed : ∀ event before after,
      (admitRequest service view loaded request world).2.trace =
        world.trace ++ (before ++ event :: after) → permitted start event) :
    Transitions permitted world (admitRequest service view loaded request world).2 := by
  unfold admitRequest at allowed ⊢
  split at allowed
  · rename_i invalid
    rw [if_pos invalid]
    exact rejectRequest_transitions pending (.first addressed absent invalid) order allowed
  · rename_i valid
    rw [if_neg valid]
    rw [Bool.not_eq_false] at valid
    split at allowed
    · rename_i status resolved
      exact rejectRequest_transitions pending
        (.access service view status addressed absent valid resolved) order allowed
    · rename_i target resolved
      simp only at allowed ⊢
      split
      · exact .refl
      · rename_i receive receiveQueue peeked
        exact .head
          (.inr <| .admitted world service view request target receive receiveQueue pending
            addressed absent
            valid resolved)
          (acceptPayload_transitions pending addressed (Function.update_self _ _ _))

theorem handleRequest_transitions (start : World) {service : QpService} {view : WorkerQpView}
    {loaded : Bool} {request : RequestDatagram}
    (qpNum : view.qpNum = world.responder.qpNum)
    (pending : world.responder.pendingRequest = some request)
    (order : start.responder.responderOrder = world.responder.responderOrder)
    (allowed : ∀ event before after,
      (handleRequest service view loaded request world).2.trace =
        world.trace ++ (before ++ event :: after) → permitted start event) :
    Transitions permitted world (handleRequest service view loaded request world).2 := by
  unfold handleRequest at allowed ⊢
  by_cases misaddressed :
      request.targetQpNum ≠ view.qpNum ∨ 2 ^ 32 - 1 < request.parentTotalLength
  · rw [if_pos misaddressed] at allowed ⊢
    refine rejectRequest_transitions pending (.target ?_) order allowed
    rintro ⟨target, length⟩
    rcases misaddressed with other | long
    · exact other (target.trans qpNum.symm)
    · omega
  · rw [if_neg misaddressed] at allowed ⊢
    rw [not_or, not_not, Nat.not_lt] at misaddressed
    have addressed : Addressed world request := ⟨misaddressed.1.trans qpNum, misaddressed.2⟩
    cases found : world.responder.responderInflight request.parentRequestId with
    | some parent => exact acceptPayload_transitions pending addressed found
    | none =>
        rw [found] at allowed
        exact admitRequest_transitions pending addressed found order allowed

theorem tryRequest_transitions {service : QpService} {view : WorkerQpView}
    (qpNum : view.qpNum = world.responder.qpNum)
    (allowed : ∀ event before after,
      (tryRequest service view world).2.trace = world.trace ++ (before ++ event :: after) →
        permitted world event) :
    Transitions permitted world (tryRequest service view world).2 := by
  unfold tryRequest at allowed ⊢
  cases pending : world.responder.pendingRequest with
  | some request =>
      rw [pending] at allowed
      exact handleRequest_transitions world qpNum pending rfl allowed
  | none =>
      rw [pending] at allowed
      unfold LocalTransport.tryPopRequest at allowed ⊢
      cases requests : world.transport.requests with
      | nil => exact .refl
      | cons request rest =>
          rw [requests] at allowed
          exact .head (.inr <| .loadRequest world request rest pending requests)
            (handleRequest_transitions world qpNum rfl rfl allowed)

/-! ## Backend and parents -/

theorem tryFlushBackendRequests_transitions (accepted : Nat) :
    Transitions permitted world (tryFlushBackendRequests accepted world).2 := by
  unfold tryFlushBackendRequests
  simp only
  split
  · exact .refl
  · split
    · exact .refl
    · exact .single (.inr <| .flush world accepted)

theorem recordCompletion_trace (world : World) (completion : BackendCompletion) :
    (recordCompletion world completion).trace = world.trace ++ [.popped completion] := by
  unfold recordCompletion
  simp only
  split <;> rfl

theorem foldl_recordCompletion_trace (world : World) (completions : List BackendCompletion) :
    (completions.foldl recordCompletion world).trace =
      world.trace ++ completions.map Event.popped := by
  induction completions generalizing world with
  | nil => exact (List.append_nil _).symm
  | cons completion completions induction =>
      rw [List.foldl_cons, induction, recordCompletion_trace, List.append_assoc]
      rfl

theorem recordCompletion_transition {start : World} {completion : BackendCompletion}
    {earlier : List BackendCompletion}
    (trace : world.trace = start.trace ++ earlier.map Event.popped)
    (allowed : permitted start (.popped completion)) :
    Transition permitted world (recordCompletion world completion) := by
  unfold recordCompletion
  cases found : world.responder.responderInflight completion.parentRequestId with
  | none => exact .inr <| .popUnknown world start completion earlier trace found allowed
  | some parent => exact .inr <| .pop world start completion earlier parent trace found allowed

theorem foldl_recordCompletion_transitions {start : World}
    (earlier : List BackendCompletion) {completions : List BackendCompletion}
    (trace : world.trace = start.trace ++ earlier.map Event.popped)
    (allowed : ∀ completion ∈ completions, permitted start (.popped completion)) :
    Transitions permitted world (completions.foldl recordCompletion world) := by
  induction completions generalizing world earlier with
  | nil => exact .refl
  | cons completion completions induction =>
      refine .head (recordCompletion_transition trace (allowed _ List.mem_cons_self)) ?_
      refine induction (earlier ++ [completion]) ?_
        fun other member => allowed other (List.mem_cons_of_mem _ member)
      rw [recordCompletion_trace, trace, List.map_append, List.append_assoc]
      rfl

theorem answerParent_transitions {view : WorkerQpView} {requestId : Nat} {order : List Nat}
    {parent : ResponderInflight} (head : world.responder.responderOrder = requestId :: order)
    (found : world.responder.responderInflight requestId = some parent)
    (submitted : parent.nextPayloadIndex = parent.payloadCount)
    (terminal : parent.terminalCount = parent.payloadCount) :
    Transitions permitted world (answerParent view requestId parent world).2 := by
  have retired : Transition permitted world _ :=
    .inr <| .retire world view requestId order parent _ head found submitted terminal rfl
  unfold answerParent LocalTransport.tryPushResponse
  by_cases receives : parent.result = .success ∧ parent.hasReceive
  · rw [if_pos receives] at retired
    simp only [if_pos receives]
    split
    · exact .refl
    · rename_i held reserved
      obtain ⟨closed, rfl⟩ := Fifo.reserve_eq_ok reserved
      split
      · -- The reservation is given back.
        rw [Fifo.publish_of_reserved _ (by simp), List.append_nil, ← closed]
      · rename_i transport pushed
        rw [Fifo.publish_of_reserved _ (by simp)]
        split at pushed
        · cases pushed
        · injection pushed with pushed
          subst pushed
          refine .single ?_
          simpa [retireParent, head, closed] using retired
  · rw [if_neg receives] at retired
    simp only [if_neg receives]
    split
    · exact .refl
    · rename_i transport pushed
      split at pushed
      · cases pushed
      · injection pushed with pushed
        subst pushed
        refine .single ?_
        simpa [retireParent, head] using retired

theorem tryParentResponse_transitions {view : WorkerQpView} :
    Transitions permitted world (tryParentResponse view world).2 := by
  unfold tryParentResponse
  split
  · exact .refl
  · rename_i requestId order head
    split
    · rename_i absent
      exact .single (.inr <| .dropOrder world requestId order head absent)
    · rename_i parent found
      split
      · exact .refl
      · rename_i complete
        rw [not_or, not_not, not_not] at complete
        exact answerParent_transitions head found complete.1 complete.2

/-! ## Actions -/

theorem step_transitions {action : Action} (admissible : Admissible permitted world action) :
    Transitions permitted world (world.step action) := by
  have allowed : ∀ event before after,
      (world.step action).trace = world.trace ++ (before ++ event :: after) →
        permitted world event :=
    fun event before after trace => admissible.permitted event (mem_newEvents trace)
  have qpNumOf : ∀ service qpNum view, action.service = some service →
      service.workerQpView qpNum = .ok view → view.qpNum = qpNum :=
    fun service qpNum view used found =>
      QpService.workerQpView_qpNum (admissible.reachable service used).valid found
  cases action with
  | postSend wqe =>
      simp only [World.step, World.postSend]
      split
      · exact .refl
      · rename_i sendQueue produced
        obtain ⟨-, rfl⟩ := Fifo.produce_eq_ok produced
        exact .single (.inl <| .post world wqe)
  | postReceive receive =>
      simp only [World.step, World.postReceive]
      split
      · exact .refl
      · exact .single (.inr <| .receiveQueue world _)
  | pollSendCq =>
      simp only [World.step, World.pollSendCq]
      split
      · exact .refl
      · rename_i entry sendCq consumed
        obtain ⟨rest, items, rfl⟩ := Fifo.consume_eq_ok consumed
        exact .single (.inl <| .pollSend world entry rest items)
  | pollReceiveCq =>
      simp only [World.step, World.pollReceiveCq]
      split
      · exact .refl
      · rename_i entry receiveCq consumed
        obtain ⟨rest, items, rfl⟩ := Fifo.consume_eq_ok consumed
        exact .single (.inr <| .pollReceive world entry rest items)
  | foreignSendCompletion entry =>
      simp only [World.step, World.foreignSendCompletion]
      split
      · exact .refl
      · rename_i sendCq produced
        obtain ⟨-, rfl⟩ := Fifo.produce_eq_ok produced
        exact .single (.inl <| .foreignSend world entry)
  | foreignReceiveCompletion entry =>
      simp only [World.step, World.foreignReceiveCompletion]
      split
      · exact .refl
      · rename_i receiveCq produced
        obtain ⟨-, rfl⟩ := Fifo.produce_eq_ok produced
        exact .single (.inr <| .foreignReceive world entry)
  | trySend service =>
      simp only [World.step, withView] at allowed ⊢
      split
      · exact .refl
      · rename_i view found
        rw [found] at allowed
        exact (trySend_transitions (qpNumOf service _ view rfl found) allowed).transitions
  | tryResponse service =>
      simp only [World.step, withView]
      split
      · exact .refl
      · rename_i view found
        exact (tryResponse_transitions (qpNumOf service _ view rfl found)).transitions
  | tryRequest service =>
      simp only [World.step, withView] at allowed ⊢
      split
      · exact .refl
      · rename_i view found
        rw [found] at allowed
        exact tryRequest_transitions (qpNumOf service _ view rfl found) allowed
  | tryFlushBackendRequests service accepted =>
      simp only [World.step, withView]
      split
      · exact .refl
      · exact tryFlushBackendRequests_transitions accepted
  | tryBackendCompletions service completions =>
      simp only [World.step, withView] at allowed ⊢
      split
      · exact .refl
      · rename_i view found
        rw [found] at allowed
        refine foldl_recordCompletion_transitions [] (List.append_nil _).symm
          fun completion member => ?_
        obtain ⟨before, after, split⟩ := List.append_of_mem member
        refine allowed _ (before.map .popped) (after.map .popped) ?_
        simp only [tryBackendCompletions, foldl_recordCompletion_trace, split, List.map_append,
          List.map_cons]
  | tryParentResponse service =>
      simp only [World.step, withView]
      split
      · exact .refl
      · exact tryParentResponse_transitions
  | deliverResponse response =>
      simp only [World.step, World.deliverResponse, LocalTransport.tryPushResponse] at allowed ⊢
      split
      · exact .refl
      · rename_i transport pushed
        split at pushed
        · cases pushed
        · rename_i room
          injection pushed with pushed
          subst pushed
          rw [if_neg room] at allowed
          exact .single (.inr <| .deliver world response (allowed _ [] [] rfl))
  | takeRequest =>
      simp only [World.step, World.takeRequest, LocalTransport.tryPopRequest] at allowed ⊢
      cases requests : world.transport.requests with
      | nil => exact .refl
      | cons request rest =>
          rw [requests] at allowed
          exact .single (.inr <| .take world request rest requests (allowed _ [] [] rfl))

theorem Transitions.invariant {Invariant : World → Prop}
    (preserved : ∀ world next, Transition permitted world next → Invariant world →
      Invariant next)
    {next : World} (transitions : Transitions permitted world next) (holds : Invariant world) :
    Invariant next := by
  induction transitions with
  | refl => exact holds
  | tail _ last induction => exact preserved _ _ last induction

/-- An invariant of the transitions holds along every run of admissible actions. -/
theorem run_invariant {Invariant : World → Prop}
    (preserved : ∀ world next, Transition permitted world next → Invariant world →
      Invariant next)
    {start : World} (holds : Invariant start) {actions : List Action}
    (admissible : Execution.Along World.step (Admissible permitted) start actions) :
    Invariant (Execution.run World.step start actions) := by
  refine Execution.run_invariant_along ?_ holds admissible
  intro world action admits invariant
  exact (step_transitions admits).invariant preserved invariant

end Ugdr.Worker
