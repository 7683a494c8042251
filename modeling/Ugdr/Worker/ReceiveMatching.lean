import Ugdr.Worker.ReceiveSteps
import Ugdr.Worker.Wraparound

/-! # Receive WRs matched to writes with immediate data

An ordinary write never touches the receive queue. A write with immediate data takes
the Receive WR at the head of the queue when it is admitted, releases it when its first
payload is handed over, and publishes one receive completion if it is answered with
success.
-/

namespace Ugdr.Worker

open Ugdr.Queue Ugdr.Control
open Ugdr.Control.QpService (WorkerQpView)

variable {world next : World} {ledger : ReceiveLedger}

/-! ## Requests -/

/-- Admitting a parent is observed as such. -/
theorem ReceiveLedger.observe_admitParent (ledger : ReceiveLedger) (service : QpService)
    (view : WorkerQpView) (target : Nat) {request : RequestDatagram}
    {receive : Option ReceiveWqeHeader} {receiveQueue : Fifo ReceiveWqeHeader}
    (pending : world.responder.pendingRequest = some request)
    (peeked : peekReceive request.opcode world.receiveQueue = .ok (receive, receiveQueue)) :
    ledger.observe world (world.admitParent service view request target receive receiveQueue) =
      { ledger with inflight := ledger.inflight ++ [⟨request, receive⟩] } := by
  have arriving : world.arriving = some request := by simp [World.arriving, pending]
  rcases peekReceive_eq_ok peeked with ⟨-, rfl, rfl⟩ | ⟨-, -, first, rest, items, rfl, rfl⟩
  · simp [ReceiveLedger.observe, ReceiveLedger.admissions, World.admitParent, arriving,
      LoopWorker.setResponderInflight, responderInflightOf]
  · simp [ReceiveLedger.observe, ReceiveLedger.admissions, World.admitParent, arriving,
      LoopWorker.setResponderInflight, responderInflightOf, items]

/-- Admitting a parent and handing over its first payload in one call is observed as
one after the other. -/
theorem ReceiveLedger.observe_admitParent_handOver (ledger : ReceiveLedger) (service : QpService)
    (view : WorkerQpView) (target : Nat) {request : RequestDatagram}
    {receive : Option ReceiveWqeHeader} {receiveQueue released : Fifo ReceiveWqeHeader}
    {consumed : ResponderInflight}
    (pending : world.responder.pendingRequest = some request)
    (peeked : peekReceive request.opcode world.receiveQueue = .ok (receive, receiveQueue))
    (consumes : consumeReceive (responderInflightOf request target receive) receiveQueue =
      .ok (consumed, released)) :
    let admitted := world.admitParent service view request target receive receiveQueue
    let handed := admitted.handOver request (responderInflightOf request target receive)
      consumed released
    ledger.observe world handed = (ledger.observe world admitted).observe admitted handed := by
  have arriving : world.arriving = some request := by simp [World.arriving, pending]
  have still : (world.admitParent service view request target receive receiveQueue).arriving =
      some request := by
    have stays : (world.admitParent service view request target receive
        receiveQueue).responder.pendingRequest = some request := pending
    simp [World.arriving, stays]
  have same := consumeReceive_eq_ok consumes
  have items : receiveQueue.items = world.receiveQueue.items := by
    rcases peekReceive_eq_ok peeked with ⟨-, -, rfl⟩ | ⟨-, -, -, -, -, -, rfl⟩ <;> rfl
  simp only [ReceiveLedger.observe, ReceiveLedger.admissions, arriving, still]
  rw [same]
  simp [World.admitParent, World.handOver, LoopWorker.setResponderInflight, responderInflightOf,
    ResponderInflight.advance, items]

namespace Accounted

/-- Nothing happened. -/
theorem unchanged (accounted : Accounted world ledger) (same : next = world) :
    Accounted next (ledger.observe world next) := by
  subst same
  rw [ledger.observe_same rfl rfl]
  exact accounted

theorem of_aside (accounted : Accounted world ledger) (aside : Aside world next) :
    Accounted next (ledger.observe world next) := by
  rw [ledger.observe_same (by rw [aside.receiveQueue]) aside.order]
  exact accounted.aside aside

theorem reject (accounted : Accounted world ledger) {request : RequestDatagram}
    (pending : world.responder.pendingRequest = some request) {result : DatagramResult}
    {disposal : Disposal} {resolution : List Event}
    (reason : Rejects world request result disposal resolution) (fresh : Bool) :
    let rejected :=
      (rejectRequest fresh request result (resolution ++ [.disposed request disposal]) world).2
    Accounted rejected (ledger.observe world rejected) := by
  intro rejected
  rcases rejectRequest_cases fresh request result
    (resolution ++ [.disposed request disposal]) world with same | refused
  · exact accounted.unchanged same
  · have refused : rejected = _ := refused
    have same : ledger.observe world
        (world.refuse request result (resolution ++ [.disposed request disposal])) = ledger :=
      ledger.observe_same rfl rfl
    rw [refused, same]
    exact accounted.refuse pending reason

theorem payloadCount_ne_zero (accounted : Accounted world ledger) {requestId : Nat}
    {parent : ResponderInflight}
    (found : world.responder.responderInflight requestId = some parent) :
    parent.payloadCount ≠ 0 := by
  have member := accounted.present requestId (by simp [found])
  rw [← accounted.order] at member
  obtain ⟨admission, member, same⟩ := List.mem_map.mp member
  obtain ⟨other, foundOther, carried⟩ := accounted.carried admission member
  rw [same, found] at foundOther
  injection foundOther with equal
  subst equal
  exact carried.nonempty

theorem acceptPayload (accounted : Accounted world ledger) {request : RequestDatagram}
    (pending : world.responder.pendingRequest = some request) {parent : ResponderInflight}
    (found : world.responder.responderInflight request.parentRequestId = some parent)
    (fresh : Bool) :
    let accepted := (Worker.acceptPayload fresh request parent world).2
    Accounted accepted (ledger.observe world accepted) := by
  intro accepted
  rcases acceptPayload_cases fresh request parent (accounted.payloadCount_ne_zero found) world
    with same | ⟨-, spoiled⟩ | ⟨valid, consumed, receiveQueue, consumes, handed⟩
  · exact accounted.unchanged same
  · have spoiled : accepted = _ := spoiled
    rw [spoiled]
    exact accounted.of_aside (.of_store found rfl rfl)
  · have handed : accepted = _ := handed
    rw [handed]
    exact accounted.handOver pending found valid consumes

theorem admitRequest (accounted : Accounted world ledger) {request : RequestDatagram}
    (pending : world.responder.pendingRequest = some request)
    (addressed : Addressed world request)
    (absent : world.responder.responderInflight request.parentRequestId = none)
    (service : QpService) (view : WorkerQpView) (fresh : Bool) :
    let admitted := (Worker.admitRequest service view fresh request world).2
    Accounted admitted (ledger.observe world admitted) := by
  unfold Worker.admitRequest
  by_cases invalid : validFirst request = false
  · rw [if_pos invalid]
    exact accounted.reject pending (.first addressed absent invalid) fresh
  · rw [if_neg invalid]
    rw [Bool.not_eq_false] at invalid
    cases resolved : service.resolveRkey view.sessionId view.pdIdentity request.rkey
        request.remoteAddress request.parentTotalLength with
    | error status =>
        exact accounted.reject pending
          (.access service view status addressed absent invalid resolved) fresh
    | ok target =>
        have nonempty := resolveKey_length_ne_zero resolved
        cases peeked : peekReceive request.opcode world.receiveQueue with
        | error status => exact accounted.unchanged rfl
        | ok found =>
            obtain ⟨receive, receiveQueue⟩ := found
            have admits := accounted.admitParent service view target pending addressed absent
              invalid nonempty peeked
            rw [← ledger.observe_admitParent service view target pending peeked] at admits
            have enters : (world.admitParent service view request target receive
                receiveQueue).responder.responderInflight request.parentRequestId =
                some (responderInflightOf request target receive) :=
              Function.update_self _ _ _
            rcases acceptPayload_cases fresh request (responderInflightOf request target receive)
                (validFirst_payloadCount invalid nonempty)
                (world.admitParent service view request target receive receiveQueue)
              with same | ⟨spoiled, -⟩ | ⟨valid, consumed, released, consumes, handed⟩
            · intro admitted
              have stays : admitted = _ := same
              rw [stays]
              exact admits
            · rw [validPayload_first invalid] at spoiled
              cases spoiled
            · intro admitted
              have both : admitted = _ := handed
              rw [both,
                ledger.observe_admitParent_handOver service view target pending peeked consumes]
              exact admits.handOver pending enters valid consumes

theorem handleRequest (accounted : Accounted world ledger) {request : RequestDatagram}
    (pending : world.responder.pendingRequest = some request) (service : QpService)
    {view : WorkerQpView} (qpNum : view.qpNum = world.responder.qpNum) (fresh : Bool) :
    let handled := (Worker.handleRequest service view fresh request world).2
    Accounted handled (ledger.observe world handled) := by
  unfold Worker.handleRequest
  by_cases misaddressed :
      request.targetQpNum ≠ view.qpNum ∨ 2 ^ 32 - 1 < request.parentTotalLength
  · rw [if_pos misaddressed]
    refine accounted.reject pending (.target ?_) fresh
    rintro ⟨target, length⟩
    rcases misaddressed with other | long
    · exact other (target.trans qpNum.symm)
    · omega
  · rw [if_neg misaddressed]
    rw [not_or, not_not, Nat.not_lt] at misaddressed
    have addressed : Addressed world request := ⟨misaddressed.1.trans qpNum, misaddressed.2⟩
    cases found : world.responder.responderInflight request.parentRequestId with
    | some parent => exact accounted.acceptPayload pending found fresh
    | none => exact accounted.admitRequest pending addressed found service view fresh

theorem tryRequest (accounted : Accounted world ledger) (service : QpService)
    {view : WorkerQpView} (qpNum : view.qpNum = world.responder.qpNum) :
    let handled := (Worker.tryRequest service view world).2
    Accounted handled (ledger.observe world handled) := by
  intro handled
  obtain ⟨fresh, handles⟩ := tryRequest_eq service view world
  cases arriving : world.arriving with
  | none =>
      rw [arriving] at handles
      exact accounted.unchanged handles
  | some request =>
      rw [arriving] at handles
      have handles : handled = _ := handles
      have pending := world.loaded_pending.trans arriving
      have number : view.qpNum = world.loaded.responder.qpNum := by
        rcases world.loaded_cases with ⟨same, -⟩ | ⟨_, _, -, -, loaded⟩
        · rw [same, qpNum]
        · rw [loaded, qpNum]
      rw [handles, ← ledger.observe_loaded]
      exact accounted.loaded.handleRequest pending service number fresh

/-! ## Answers -/

end Accounted

/-- The state after the parent at the head of `responder_order_` was answered. -/
def World.answer (view : WorkerQpView) (requestId : Nat) (parent : ResponderInflight)
    (world : World) : World :=
  let response : ResponseDatagram := { parentRequestId := requestId, result := parent.result }
  let entry :=
    if parent.result = .success ∧ parent.hasReceive then some (receiveEntry view parent)
    else none
  { world with
    transport := { world.transport with responses := world.transport.responses ++ [response] }
    receiveCq := { world.receiveCq with items := world.receiveCq.items ++ entry.toList }
    responder :=
      { world.responder with
        responderInflight := Function.update world.responder.responderInflight requestId none
        responderOrder := world.responder.responderOrder.tail }
    trace :=
      world.trace ++ [.responded response] ++ entry.toList.map (Event.received requestId) }

theorem answerParent_cases (view : WorkerQpView) (requestId : Nat)
    (parent : ResponderInflight) (world : World) :
    (answerParent view requestId parent world).2 = world ∨
      (answerParent view requestId parent world).2 = world.answer view requestId parent := by
  unfold answerParent LocalTransport.tryPushResponse World.answer
  by_cases receives : parent.result = .success ∧ parent.hasReceive
  · simp only [if_pos receives]
    split
    · exact .inl rfl
    · rename_i held reserved
      obtain ⟨closed, rfl⟩ := Fifo.reserve_eq_ok reserved
      split
      · -- The reservation is given back.
        rw [Fifo.publish_of_reserved _ (by simp), List.append_nil, ← closed]
        exact .inl rfl
      · rename_i transport pushed
        rw [Fifo.publish_of_reserved _ (by simp)]
        split at pushed
        · cases pushed
        · injection pushed with pushed
          subst pushed
          exact .inr (by simp [retireParent, closed])
  · simp only [if_neg receives]
    split
    · exact .inl rfl
    · rename_i transport pushed
      split at pushed
      · cases pushed
      · injection pushed with pushed
        subst pushed
        exact .inr (by simp [retireParent])

namespace Accounted

theorem answer (accounted : Accounted world ledger) {view : WorkerQpView}
    (qpNum : view.qpNum = world.responder.qpNum) {requestId : Nat} {order : List Nat}
    {parent : ResponderInflight} (head : world.responder.responderOrder = requestId :: order)
    (found : world.responder.responderInflight requestId = some parent)
    (submitted : parent.nextPayloadIndex = parent.payloadCount) :
    Accounted (world.answer view requestId parent)
      (ledger.observe world (world.answer view requestId parent)) := by
  have ids := accounted.order
  cases inflight : ledger.inflight with
  | nil =>
      rw [inflight, head] at ids
      cases ids
  | cons admission rest =>
      rw [inflight, head, List.map_cons] at ids
      injection ids with same ids
      have member : admission ∈ ledger.inflight := by
        rw [inflight]
        exact List.mem_cons_self
      obtain ⟨other, foundOther, carried⟩ := accounted.carried admission member
      rw [same, found] at foundOther
      injection foundOther with equal
      subst equal
      have started : parent.nextPayloadIndex ≠ 0 := by
        rw [submitted]
        exact carried.nonempty
      have distinct := accounted.distinct
      rw [head] at distinct
      have observed : ledger.observe world (world.answer view requestId parent) =
          { ledger with
            inflight := rest
            retired := ledger.retired ++
              [(admission, { parentRequestId := requestId, result := parent.result })] } := by
        simp [ReceiveLedger.observe, ReceiveLedger.admissions, World.answer, head, inflight]
      have admitted : ({ ledger with
          inflight := rest
          retired := ledger.retired ++
            [(admission, { parentRequestId := requestId, result := parent.result })] } :
          ReceiveLedger).admitted = ledger.admitted := by
        simp [ReceiveLedger.admitted, inflight]
      -- Every payload of the parent was handed over, so it is not the one held back.
      have begun : ∀ request,
          (world.answer view requestId parent).begun request = world.begun request := by
        intro request
        by_cases own : request.parentRequestId = requestId
        · simp [World.begun, World.answer, own, found, started]
        · simp [World.begun, World.answer, own]
      have holder : (world.answer view requestId parent).holder = world.holder := by
        unfold World.holder
        simp only [begun]
        rfl
      have unadmitted : (world.answer view requestId parent).unadmitted = world.unadmitted := by
        unfold World.unadmitted
        simp only [begun]
        rfl
      rw [observed]
      refine ⟨accounted.slots, ?_, ?_, ?_, ?_, ?_, ?_, ?_, ?_, accounted.stocked, ?_, ?_, ?_, ?_⟩
      · simp [World.answer, head, ids]
      · simpa [World.answer, head] using (List.nodup_cons.mp distinct).2
      · intro key present
        by_cases own : key = requestId
        · simp [World.answer, own] at present
        · have kept := accounted.present key (by simpa [World.answer, own] using present)
          rw [head] at kept
          simpa [World.answer, head, own] using kept
      · intro later lies
        obtain ⟨parent, found, carried⟩ :=
          accounted.carried later (by rw [inflight]; exact List.mem_cons_of_mem _ lies)
        have other : later.requestId ≠ requestId := by
          intro equal
          refine (List.nodup_cons.mp distinct).1 ?_
          rw [← ids, ← equal]
          exact List.mem_map.mpr ⟨later, lies, rfl⟩
        refine ⟨parent, ?_, { carried with first := carried.first }⟩
        simpa [World.answer, other] using found
      · rw [admitted]
        exact accounted.kinds
      · intro retired lies
        rcases List.mem_append.mp lies with lies | lies
        · exact accounted.answered retired lies
        · rw [List.mem_singleton.mp lies]
          exact same.symm
      · rw [ReceiveLedger.claims, admitted, holder]
        exact accounted.claims
      · rw [holder]
        exact accounted.peeked
      · have handedOver := accounted.handedOver
        unfold World.handedOver World.disposed at handedOver
        rw [handedOver]
        simp only [World.handedOver, World.disposed, World.answer]
        split <;> simp [List.filterMap_cons]
      · have completions := accounted.completions
        unfold World.received at completions
        have entry : (Admission.completion world.responder.qpNum
            (admission, { parentRequestId := requestId, result := parent.result })) =
            if parent.result = .success ∧ parent.hasReceive then
              some (requestId, receiveEntry view parent)
            else
              none := by
          have has := carried.hasReceive
          cases receives : admission.receive with
          | none =>
              rw [receives] at has
              simp [Admission.completion, receives, has]
          | some receive =>
              rw [receives] at has
              simp [Admission.completion, receives, has, same, receiveEntry, Admission.entry,
                carried.receiveWrId receive receives, carried.byteLength,
                carried.immediateData, qpNum]
        rw [List.filterMap_append]
        have number : (world.answer view requestId parent).responder.qpNum =
            world.responder.qpNum := rfl
        rw [number, ← completions]
        simp only [World.received, World.answer, Trace.filterMap_singleton, entry]
        split <;> simp [List.filterMap_cons]
      · have published := accounted.published
        unfold World.publishedReceive World.polledReceive at published
        simp only [World.publishedReceive, World.polledReceive, World.answer]
        split <;> simp [published, List.filterMap_cons]
      · have sent := accounted.sent
        rw [admitted, unadmitted]
        refine sent.trans ?_
        simp only [World.sent, World.answer]
        split <;> simp [List.filterMap_cons]

theorem tryParentResponse (accounted : Accounted world ledger) {view : WorkerQpView}
    (qpNum : view.qpNum = world.responder.qpNum) :
    let answered := (Worker.tryParentResponse view world).2
    Accounted answered (ledger.observe world answered) := by
  unfold Worker.tryParentResponse
  cases head : world.responder.responderOrder with
  | nil => exact accounted.unchanged rfl
  | cons requestId order =>
      simp only
      cases found : world.responder.responderInflight requestId with
      | none =>
          have ids := accounted.order
          rw [head] at ids
          have member : requestId ∈ ledger.inflight.map Admission.requestId := by
            rw [ids]
            exact List.mem_cons_self
          obtain ⟨admission, member, same⟩ := List.mem_map.mp member
          obtain ⟨parent, present, -⟩ := accounted.carried admission member
          rw [same, found] at present
          cases present
      | some parent =>
          simp only
          split
          · exact accounted.unchanged rfl
          · rename_i complete
            rw [not_or, not_not, not_not] at complete
            rcases answerParent_cases view requestId parent world with same | answered
            · exact accounted.unchanged same
            · rw [answered]
              exact accounted.answer qpNum head found complete.1

/-! ## Clients of the rings -/

theorem postReceive (accounted : Accounted world ledger) (receive : ReceiveWqeHeader) :
    Accounted (world.postReceive receive)
      (ledger.observe world (world.postReceive receive)) := by
  unfold World.postReceive
  split
  · exact accounted.unchanged rfl
  · rename_i receiveQueue produced
    obtain ⟨-, rfl⟩ := Fifo.produce_eq_ok produced
    have observed : ledger.observe world
        { world with
          receiveQueue :=
            { world.receiveQueue with items := world.receiveQueue.items ++ [receive] } } =
        { ledger with posted := ledger.posted ++ [receive] } := by
      simp [ReceiveLedger.observe, ReceiveLedger.admissions]
    rw [observed]
    have stocked := accounted.stocked
    have peeked := accounted.peeked
    refine ⟨?_, accounted.order, accounted.distinct, accounted.present, ?_, accounted.kinds,
      accounted.answered, ?_, accounted.peeked, ?_, accounted.handedOver,
      accounted.completions, accounted.published, accounted.sent⟩
    · simp [accounted.slots]
    · intro admission member
      obtain ⟨parent, found, carried⟩ := accounted.carried admission member
      exact ⟨parent, found, { carried with first := carried.first }⟩
    · have claims := accounted.claims
      have same : ∀ held : Option RequestDatagram,
          held.toList.length ≤ world.receiveQueue.items.length →
          held.toList.zip (world.receiveQueue.items ++ [receive]) =
            held.toList.zip world.receiveQueue.items := by
        intro held within
        cases held with
        | none => rfl
        | some request =>
            cases items : world.receiveQueue.items with
            | nil => simp [items] at within
            | cons first rest => rfl
      exact claims.trans (congrArg _ (same world.holder (by omega)).symm)
    · simp only [List.length_append]
      omega

/-- A step of another user of the receive completion queue. -/
theorem completionQueue (accounted : Accounted world ledger) {event : Event}
    {receiveCq : Fifo CompletionEntry} (disposed : event.disposed? = none)
    (received : event.received? = none) (sent : event.sent? = none)
    (published : world.publishedReceive ++ event.publishedReceive?.toList =
      world.polledReceive ++ event.polledReceive?.toList ++ receiveCq.items) :
    let next := { world with receiveCq, trace := world.trace ++ [event] }
    Accounted next (ledger.observe world next) := by
  intro next
  have observed : ledger.observe world next = ledger := ledger.observe_same rfl rfl
  rw [observed]
  refine ⟨accounted.slots, accounted.order, accounted.distinct, accounted.present, ?_,
    accounted.kinds, accounted.answered, accounted.claims, accounted.peeked,
    accounted.stocked, ?_, ?_, ?_, ?_⟩
  · intro admission member
    obtain ⟨parent, found, carried⟩ := accounted.carried admission member
    exact ⟨parent, found, { carried with first := carried.first }⟩
  · rw [accounted.handedOver, World.handedOver, World.handedOver, World.disposed,
      World.disposed, List.filterMap_append, Trace.filterMap_singleton, disposed,
      Option.toList_none, List.append_nil]
  · rw [World.received, List.filterMap_append, Trace.filterMap_singleton, received,
      Option.toList_none, List.append_nil]
    exact accounted.completions
  · rw [World.publishedReceive, World.polledReceive, List.filterMap_append,
      List.filterMap_append, Trace.filterMap_singleton, Trace.filterMap_singleton]
    exact published
  · rw [World.sent, List.filterMap_append, Trace.filterMap_singleton, sent,
      Option.toList_none, List.append_nil]
    exact accounted.sent

theorem pollReceiveCq (accounted : Accounted world ledger) :
    Accounted world.pollReceiveCq (ledger.observe world world.pollReceiveCq) := by
  unfold World.pollReceiveCq
  split
  · exact accounted.unchanged rfl
  · rename_i entry receiveCq consumed
    obtain ⟨rest, items, rfl⟩ := Fifo.consume_eq_ok consumed
    refine accounted.completionQueue rfl rfl rfl ?_
    simp [accounted.published, items]

theorem foreignReceiveCompletion (accounted : Accounted world ledger)
    (entry : CompletionEntry) :
    Accounted (world.foreignReceiveCompletion entry)
      (ledger.observe world (world.foreignReceiveCompletion entry)) := by
  unfold World.foreignReceiveCompletion
  split
  · exact accounted.unchanged rfl
  · rename_i receiveCq produced
    obtain ⟨-, rfl⟩ := Fifo.produce_eq_ok produced
    refine accounted.completionQueue rfl rfl rfl ?_
    simp [accounted.published]

/-! ## Actions and runs -/

theorem step (accounted : Accounted world ledger) (action : Action)
    (reachable : ∀ service, action.service = some service → service.Reachable) :
    Accounted (world.step action) (ledger.observe world (world.step action)) := by
  have qpNumOf : ∀ service qpNum view, action.service = some service →
      service.workerQpView qpNum = .ok view → view.qpNum = qpNum :=
    fun service qpNum view used found =>
      QpService.workerQpView_qpNum (reachable service used).valid found
  cases action with
  | postSend wqe =>
      simp only [World.step, World.postSend]
      split
      · exact accounted.unchanged rfl
      · rename_i sendQueue produced
        obtain ⟨-, rfl⟩ := Fifo.produce_eq_ok produced
        have posts : SenderTransition (fun _ _ => True) world _ := .post world wqe
        exact accounted.of_aside (.of_sender posts)
  | postReceive receive => exact accounted.postReceive receive
  | pollSendCq =>
      simp only [World.step, World.pollSendCq]
      split
      · exact accounted.unchanged rfl
      · rename_i entry sendCq consumed
        obtain ⟨rest, items, rfl⟩ := Fifo.consume_eq_ok consumed
        have polls : SenderTransition (fun _ _ => True) world _ :=
          .pollSend world entry rest items
        exact accounted.of_aside (.of_sender polls)
  | pollReceiveCq => exact accounted.pollReceiveCq
  | foreignSendCompletion entry =>
      simp only [World.step, World.foreignSendCompletion]
      split
      · exact accounted.unchanged rfl
      · rename_i sendCq produced
        obtain ⟨-, rfl⟩ := Fifo.produce_eq_ok produced
        have publishes : SenderTransition (fun _ _ => True) world _ := .foreignSend world entry
        exact accounted.of_aside (.of_sender publishes)
  | foreignReceiveCompletion entry => exact accounted.foreignReceiveCompletion entry
  | trySend service =>
      simp only [World.step, withView]
      split
      · exact accounted.unchanged rfl
      · rename_i view found
        have sends : SenderTransitions (fun _ _ => True) world (trySend service view world).2 :=
          trySend_transitions (qpNumOf service _ view rfl found) fun _ _ _ _ => trivial
        exact accounted.of_aside (.of_senders sends)
  | tryResponse service =>
      simp only [World.step, withView]
      split
      · exact accounted.unchanged rfl
      · rename_i view found
        have consumes : SenderTransitions (fun _ _ => True) world (tryResponse view world).2 :=
          tryResponse_transitions (qpNumOf service _ view rfl found)
        exact accounted.of_aside (.of_senders consumes)
  | tryRequest service =>
      simp only [World.step, withView]
      split
      · exact accounted.unchanged rfl
      · rename_i view found
        exact accounted.tryRequest service (qpNumOf service _ view rfl found)
  | tryFlushBackendRequests service accepted =>
      simp only [World.step, withView]
      split
      · exact accounted.unchanged rfl
      · exact accounted.of_aside (.of_flush world accepted)
  | tryBackendCompletions service completions =>
      simp only [World.step, withView]
      split
      · exact accounted.unchanged rfl
      · exact accounted.of_aside (.of_completions world completions)
  | tryParentResponse service =>
      simp only [World.step, withView]
      split
      · exact accounted.unchanged rfl
      · rename_i view found
        exact accounted.tryParentResponse (qpNumOf service _ view rfl found)
  | deliverResponse response => exact accounted.of_aside (.of_deliverResponse world response)
  | takeRequest => exact accounted.of_aside (.of_takeRequest world)

end Accounted

theorem run_receives {configuration : World.Configuration} {actions : List Action}
    (reachable : ∀ action ∈ actions, ∀ service, action.service = some service →
      service.Reachable) :
    let run := Execution.run ReceiveRun.step (.initial configuration) actions
    Accounted run.world run.ledger := by
  have preserved : ∀ (start : ReceiveRun), Accounted start.world start.ledger →
      Accounted (Execution.run ReceiveRun.step start actions).world
        (Execution.run ReceiveRun.step start actions).ledger := by
    induction actions with
    | nil => exact fun _ accounted => accounted
    | cons action actions induction =>
        intro start accounted
        exact induction (fun other member => reachable other (List.mem_cons_of_mem _ member))
          (start.step action) (accounted.step action (reachable action List.mem_cons_self))
  exact preserved (.initial configuration) (initial_receives configuration)

/-! ## Ordinary writes -/

theorem World.loaded_receiveQueue (world : World) :
    world.loaded.receiveQueue = world.receiveQueue := by
  rcases world.loaded_cases with ⟨same, -⟩ | ⟨_, _, -, -, loaded⟩
  · rw [same]
  · rw [loaded]

theorem rejectRequest_receiveQueue (fresh : Bool) (request : RequestDatagram)
    (result : DatagramResult) (events : List Event) (world : World) :
    (rejectRequest fresh request result events world).2.receiveQueue = world.receiveQueue := by
  rcases rejectRequest_cases fresh request result events world with same | refused
  · rw [same]
  · rw [refused]
    rfl

theorem acceptPayload_receiveQueue (fresh : Bool) {request : RequestDatagram}
    {parent : ResponderInflight} (nonempty : parent.payloadCount ≠ 0)
    (none : validPayload request parent = true → parent.hasReceive = false) (world : World) :
    (acceptPayload fresh request parent world).2.receiveQueue = world.receiveQueue := by
  rcases acceptPayload_cases fresh request parent nonempty world
    with same | ⟨-, spoiled⟩ | ⟨valid, consumed, receiveQueue, consumes, handed⟩
  · rw [same]
  · rw [spoiled]
  · rw [handed]
    simp only [consumeReceive, none valid, Bool.false_eq_true, false_and, if_false,
      Except.ok.injEq, Prod.mk.injEq] at consumes
    exact consumes.2.symm

/-- A datagram of an ordinary write leaves the receive queue alone. -/
theorem Accounted.ordinary (accounted : Accounted world ledger) {request : RequestDatagram}
    (arriving : world.arriving = some request) (write : request.opcode = .rdmaWrite)
    (service : QpService) (view : WorkerQpView) :
    (Worker.tryRequest service view world).2.receiveQueue = world.receiveQueue := by
  obtain ⟨fresh, handles⟩ := tryRequest_eq service view world
  have loaded := accounted.loaded
  rw [arriving] at handles
  rw [handles, ← world.loaded_receiveQueue]
  dsimp only
  unfold Worker.handleRequest
  split
  · exact rejectRequest_receiveQueue _ _ _ _ _
  · cases found : world.loaded.responder.responderInflight request.parentRequestId with
    | some parent =>
        refine acceptPayload_receiveQueue fresh (loaded.payloadCount_ne_zero found) ?_ _
        intro valid
        have member := loaded.present request.parentRequestId (by simp [found])
        rw [← loaded.order] at member
        obtain ⟨admission, member, same⟩ := List.mem_map.mp member
        obtain ⟨other, foundOther, carried⟩ := loaded.carried admission member
        rw [same, found] at foundOther
        injection foundOther with equal
        subst equal
        have opcode := (validPayload_index valid carried.nonempty).1
        rw [← Bool.not_eq_true, carried.hasReceive,
          loaded.kinds admission (List.mem_append_right _ member), ← carried.opcode, ← opcode,
          write]
        exact nofun
    | none =>
        simp only
        unfold Worker.admitRequest
        split
        · exact rejectRequest_receiveQueue _ _ _ _ _
        · rename_i valid
          rw [Bool.not_eq_false] at valid
          split
          · exact rejectRequest_receiveQueue _ _ _ _ _
          · rename_i target resolved
            have peeked : peekReceive request.opcode world.loaded.receiveQueue =
                .ok (none, world.loaded.receiveQueue) := by
              rw [write]
              rfl
            rw [peeked]
            exact acceptPayload_receiveQueue fresh
              (validFirst_payloadCount valid (resolveKey_length_ne_zero resolved))
              (fun _ => rfl) _

/-! ## Waiting for a Receive WR -/

/-- The next datagram is the first of a write with immediate data that passes all
checks, and the receive queue is empty. -/
structure Waiting (service : QpService) (view : WorkerQpView) (world : World)
    (request : RequestDatagram) : Prop where
  arriving : world.arriving = some request
  opcode : request.opcode = .rdmaWriteWithImmediate
  addressed : request.targetQpNum = view.qpNum ∧ request.parentTotalLength ≤ 2 ^ 32 - 1
  absent : world.responder.responderInflight request.parentRequestId = none
  valid : validFirst request = true
  resolved : ∃ target, service.resolveRkey view.sessionId view.pdIdentity request.rkey
    request.remoteAddress request.parentTotalLength = .ok target
  empty : world.receiveQueue.items = []

/-- A request that waits for a Receive WR is loaded and kept; nothing else happens. -/
theorem Waiting.keeps {service : QpService} {view : WorkerQpView} {request : RequestDatagram}
    (waiting : Waiting service view world request) :
    (Worker.tryRequest service view world).2 =
      { world with
        transport := { world.transport with requests := world.travelling.tail }
        responder := { world.responder with pendingRequest := some request } } := by
  obtain ⟨fresh, handles⟩ := tryRequest_eq service view world
  obtain ⟨target, resolved⟩ := waiting.resolved
  rw [waiting.arriving] at handles
  have absent : world.loaded.responder.responderInflight request.parentRequestId = none := by
    rcases world.loaded_cases with ⟨same, -⟩ | ⟨_, _, -, -, loaded⟩
    · rw [same, waiting.absent]
    · rw [loaded, waiting.absent]
  have peeked : ∃ status,
      peekReceive request.opcode world.loaded.receiveQueue = .error status := by
    rw [waiting.opcode, world.loaded_receiveQueue]
    simp only [peekReceive, Fifo.peek, waiting.empty]
    by_cases closed : world.receiveQueue.peeked = 0
    · exact ⟨.eagain, by simp [closed]⟩
    · exact ⟨.einval, by simp [closed]⟩
  obtain ⟨status, peeked⟩ := peeked
  have same : (handleRequest service view fresh request world.loaded).2 = world.loaded := by
    have misaddressed :
        ¬(request.targetQpNum ≠ view.qpNum ∨ 2 ^ 32 - 1 < request.parentTotalLength) := by
      rw [not_or, not_not, Nat.not_lt]
      exact waiting.addressed
    rw [handleRequest, if_neg misaddressed, absent]
    simp [admitRequest, waiting.valid, resolved, peeked]
  rw [handles]
  dsimp only
  rw [same]
  have pending := world.loaded_pending.trans waiting.arriving
  rcases world.loaded_cases with ⟨still, empty⟩ | ⟨first, rest, idle, requests, loaded⟩
  · rw [still] at pending ⊢
    have tail : world.travelling.tail = world.transport.requests := by
      simp [World.travelling, pending]
    rw [tail, ← pending]
  · rw [loaded] at pending ⊢
    simp only [Option.some.injEq] at pending
    simp [World.travelling, idle, requests, pending]

/-! ## Main theorem -/

/-- The receive side of a run. The slots released are a prefix of the Receive WRs
posted. Exactly the parents of writes with immediate data take a Receive WR; listed in
order of admission, they and the Receive WRs they took are the ones released, each with
the first payload that went to the backend, and at most one that still holds its slot
because that payload is pending. A parent is answered in order of admission, and the
receive completions are those of the parents that took a Receive WR and were answered
with success. -/
structure ReceiveMatched (world : World) (ledger : ReceiveLedger) : Prop where
  slots : ledger.posted = ledger.released.map Prod.snd ++ world.receiveQueue.items
  kinds : ∀ admission ∈ ledger.admitted,
    admission.receive.isSome ↔ admission.request.opcode = .rdmaWriteWithImmediate
  claims : ledger.claims =
    ledger.released ++ world.holder.toList.zip world.receiveQueue.items
  peeked : world.receiveQueue.peeked = world.holder.toList.length
  handedOver : ledger.released.map Prod.fst = world.handedOver
  order : ledger.inflight.map Admission.requestId = world.responder.responderOrder
  inflight : ∀ requestId, world.responder.responderInflight requestId ≠ none ↔
    requestId ∈ world.responder.responderOrder
  answered : ∀ retired ∈ ledger.retired, retired.2.parentRequestId = retired.1.requestId
  completions : world.received =
    ledger.retired.filterMap (Admission.completion world.responder.qpNum)
  published : world.publishedReceive = world.polledReceive ++ world.receiveCq.items
  sent : (ledger.admitted.map Admission.request).Sublist world.sent

theorem Accounted.receiveMatched (accounted : Accounted world ledger) :
    ReceiveMatched world ledger where
  slots := accounted.slots
  kinds := accounted.kinds
  claims := accounted.claims
  peeked := accounted.peeked
  handedOver := accounted.handedOver
  order := accounted.order
  inflight := by
    refine fun requestId => ⟨accounted.present requestId, fun member => ?_⟩
    rw [← accounted.order] at member
    obtain ⟨admission, member, same⟩ := List.mem_map.mp member
    obtain ⟨parent, found, -⟩ := accounted.carried admission member
    rw [← same, found]
    exact nofun
  answered := accounted.answered
  completions := accounted.completions
  published := accounted.published
  sent := (List.sublist_append_left _ _).trans accounted.sent

theorem receives_matched (configuration : World.Configuration) (actions : List Action)
    (reachable : ∀ action ∈ actions, ∀ service, action.service = some service →
      service.Reachable) :
    let run := Execution.run ReceiveRun.step (.initial configuration) actions
    ReceiveMatched run.world run.ledger ∧
      (∀ service request, run.world.arriving = some request → request.opcode = .rdmaWrite →
        (run.world.step (.tryRequest service)).receiveQueue = run.world.receiveQueue) ∧
      ∀ service view request,
        service.workerQpView run.world.responder.qpNum = .ok view →
        Waiting service view run.world request →
        run.world.step (.tryRequest service) =
          { run.world with
            transport := { run.world.transport with requests := run.world.travelling.tail }
            responder := { run.world.responder with pendingRequest := some request } } := by
  intro run
  have accounted : Accounted run.world run.ledger := run_receives reachable
  refine ⟨accounted.receiveMatched, ?_, ?_⟩
  · intro service request arriving write
    simp only [World.step, withView]
    split
    · rfl
    · rename_i view found
      exact accounted.ordinary arriving write service view
  · intro service view request found waiting
    simp only [World.step, withView, found]
    exact waiting.keeps

namespace Loopback

open Ugdr.Control.Loopback

/-- A write of 8 bytes with immediate data. -/
def immediateWrite : SendWqe where
  header :=
    { wrId := 5, opcode := wrRdmaWriteWithImm, immediateData := 7, sgeCount := 1,
      remoteAddress := 4096, rkey := 2 }
  sges := fun _ => { address := 4096, length := 8, lkey := 1 }
  length_lt := fun _ => eight_lt

/-- It meets one Receive WR, and the backend completes its only payload. -/
def immediateActions (result : DatagramResult) : List Action :=
  [.postReceive { wrId := 21 }, .postSend immediateWrite, .trySend service,
    .tryRequest service, .tryFlushBackendRequests service 1,
    .tryBackendCompletions service [⟨requestId 1, 0, result⟩], .tryParentResponse service]

def immediateRun (result : DatagramResult) : ReceiveRun :=
  Execution.run ReceiveRun.step (.initial configuration) (immediateActions result)

theorem immediateActions_reachable (result : DatagramResult) :
    ∀ action ∈ immediateActions result, ∀ other, action.service = some other →
      other.Reachable := by
  refine actions_reachable fun action member other same => ?_
  simp only [immediateActions, List.mem_cons, List.not_mem_nil, or_false] at member
  rcases member with rfl | rfl | rfl | rfl | rfl | rfl | rfl <;> cases same <;> rfl

end Loopback

theorem receives_matched_immediate :
    (Loopback.immediateRun .success).world.received =
        [(Loopback.requestId 1,
          { wrId := 21, status := wcSuccess, opcode := wcRecvRdmaWithImm, byteLength := 8,
            immediateData := 7, qpNum := 2, flags := wcWithImm })] ∧
      ReceiveMatched (Loopback.immediateRun .success).world
        (Loopback.immediateRun .success).ledger :=
  ⟨by decide +kernel,
    (receives_matched Loopback.configuration (Loopback.immediateActions .success)
      (Loopback.immediateActions_reachable .success)).1⟩

end Ugdr.Worker
