import Ugdr.Worker.ReceiveLedger

/-! # Steps of the receive side

What a step does to Receive WRs and the parents that take them, and that it keeps the
ledger accounted for: a step beside the receive side, loading a request, answering it
with an error, admitting a parent and handing over a payload.
-/

namespace Ugdr.Worker

open Ugdr.Queue Ugdr.Control
open Ugdr.Control.QpService (WorkerQpView)

variable {permitted : World → Event → Prop} {world next : World} {ledger : ReceiveLedger}

/-! ## Steps beside the receive side -/

/-- The two records differ in the results of payloads only. -/
def ResponderInflight.Alike (parent other : ResponderInflight) : Prop :=
  other =
    { parent with
      terminalCount := other.terminalCount
      terminal := other.terminal
      results := other.results
      parentError := other.parentError }

namespace ResponderInflight

theorem Alike.refl (parent : ResponderInflight) : parent.Alike parent :=
  rfl

theorem Alike.trans {parent middle other : ResponderInflight} (first : parent.Alike middle)
    (second : middle.Alike other) : parent.Alike other := by
  unfold Alike at *
  rw [second, first]

theorem alike_record (parent : ResponderInflight) (completion : BackendCompletion) :
    parent.Alike (parent.record completion) := by
  unfold record
  split <;> rfl

theorem Alike.validPayload {parent other : ResponderInflight} (alike : parent.Alike other)
    (request : RequestDatagram) : validPayload request other = validPayload request parent := by
  rw [alike]
  rfl

end ResponderInflight

/-- Nothing of what happens to Receive WRs and to the parents that take them changes. -/
structure Aside (world next : World) : Prop where
  receiveQueue : next.receiveQueue = world.receiveQueue
  receiveCq : next.receiveCq = world.receiveCq
  qpNum : next.responder.qpNum = world.responder.qpNum
  order : next.responder.responderOrder = world.responder.responderOrder
  pendingRequest : next.responder.pendingRequest = world.responder.pendingRequest
  inflight : ∀ requestId, Option.Rel ResponderInflight.Alike
    (world.responder.responderInflight requestId) (next.responder.responderInflight requestId)
  disposed : next.disposed = world.disposed
  received : next.received = world.received
  publishedReceive : next.publishedReceive = world.publishedReceive
  polledReceive : next.polledReceive = world.polledReceive
  requests : ∀ earlier, (earlier ++ world.transport.requests).Sublist world.sent →
    (earlier ++ next.transport.requests).Sublist next.sent

/-- Events that say nothing about datagrams sent or disposed of, nor about the receive
completion queue. -/
def Event.aside : Event → Bool
  | .sent _ => false
  | .disposed _ _ => false
  | .received _ _ => false
  | .foreignReceive _ => false
  | .polledReceive _ => false
  | _ => true

theorem rel_alike_refl (found : Option ResponderInflight) :
    Option.Rel ResponderInflight.Alike found found := by
  cases found with
  | none => exact .none
  | some parent => exact .some (.refl parent)

theorem rel_alike_trans {before middle after : Option ResponderInflight}
    (first : Option.Rel ResponderInflight.Alike before middle)
    (second : Option.Rel ResponderInflight.Alike middle after) :
    Option.Rel ResponderInflight.Alike before after := by
  cases first with
  | none => exact second
  | some alike =>
      cases second with
      | some other => exact .some (alike.trans other)

namespace Aside

theorem refl (world : World) : Aside world world :=
  ⟨rfl, rfl, rfl, rfl, rfl, fun _ => rel_alike_refl _, rfl, rfl, rfl, rfl,
    fun _ sublist => sublist⟩

theorem trans {middle : World} (first : Aside world middle) (second : Aside middle next) :
    Aside world next where
  receiveQueue := second.receiveQueue.trans first.receiveQueue
  receiveCq := second.receiveCq.trans first.receiveCq
  qpNum := second.qpNum.trans first.qpNum
  order := second.order.trans first.order
  pendingRequest := second.pendingRequest.trans first.pendingRequest
  inflight := fun requestId =>
    rel_alike_trans (first.inflight requestId) (second.inflight requestId)
  disposed := second.disposed.trans first.disposed
  received := second.received.trans first.received
  publishedReceive := second.publishedReceive.trans first.publishedReceive
  polledReceive := second.polledReceive.trans first.polledReceive
  requests := fun earlier sublist => second.requests earlier (first.requests earlier sublist)

/-- What the requester and its clients do. -/
theorem of_sender (transition : SenderTransition permitted world next) :
    Aside world next := by
  have frame := transition.responderFrame
  have quiet : ∀ {α : Type} {projection : Event → Option α},
      (∀ event, event.bySender = true → projection event = none) →
      next.trace.filterMap projection = world.trace.filterMap projection :=
    fun quiet => frame.filterMap quiet
  refine ⟨frame.receiveQueue, frame.receiveCq, by rw [frame.responder], by rw [frame.responder],
    by rw [frame.responder], by rw [frame.responder]; exact fun _ => rel_alike_refl _,
    quiet ?_, quiet ?_, quiet ?_, quiet ?_, ?_⟩
  · intro event own
    cases event <;> first | rfl | cases own
  · intro event own
    cases event <;> first | rfl | cases own
  · intro event own
    cases event <;> first | rfl | cases own
  · intro event own
    cases event <;> first | rfl | cases own
  · intro earlier sublist
    unfold World.sent at *
    cases transition with
    | post | pollSend | foreignSend | fail | issue | ignore | answer | collide
    | loadResponse => simpa using sublist
    | push parent =>
        simp only [List.filterMap_append, ← List.append_assoc]
        exact sublist.append (.refl _)
    | pushLast parent =>
        simp only [List.filterMap_append, ← List.append_assoc]
        refine (sublist.append (.refl _)).trans ?_
        simp

theorem of_senders (transitions : SenderTransitions permitted world next) :
    Aside world next := by
  induction transitions with
  | refl => exact .refl _
  | tail _ last induction => exact induction.trans (of_sender last)

/-- Recording events that say nothing about the receive side. -/
theorem of_events {events : List Event} {dropped : List RequestDatagram}
    (receiveQueue : next.receiveQueue = world.receiveQueue)
    (receiveCq : next.receiveCq = world.receiveCq)
    (qpNum : next.responder.qpNum = world.responder.qpNum)
    (order : next.responder.responderOrder = world.responder.responderOrder)
    (pendingRequest : next.responder.pendingRequest = world.responder.pendingRequest)
    (inflight : ∀ requestId, Option.Rel ResponderInflight.Alike
      (world.responder.responderInflight requestId)
      (next.responder.responderInflight requestId))
    (trace : next.trace = world.trace ++ events)
    (quiet : ∀ event ∈ events, event.aside = true)
    (requests : world.transport.requests = dropped ++ next.transport.requests) :
    Aside world next := by
  have silent : ∀ {α : Type} {projection : Event → Option α},
      (∀ event, event.aside = true → projection event = none) →
      next.trace.filterMap projection = world.trace.filterMap projection := by
    intro α projection unseen
    rw [trace, List.filterMap_append,
      List.filterMap_eq_nil_iff.mpr fun event member => unseen event (quiet event member),
      List.append_nil]
  refine ⟨receiveQueue, receiveCq, qpNum, order, pendingRequest, inflight,
    silent ?_, silent ?_, silent ?_, silent ?_, ?_⟩
  · intro event own
    cases event <;> first | rfl | cases own
  · intro event own
    cases event <;> first | rfl | cases own
  · intro event own
    cases event <;> first | rfl | cases own
  · intro event own
    cases event <;> first | rfl | cases own
  · intro earlier sublist
    have sent : next.sent = world.sent :=
      silent fun event own => by cases event <;> first | rfl | cases own
    rw [sent]
    rw [requests] at sublist
    exact (List.Sublist.append_left (List.sublist_append_right dropped _) earlier).trans sublist

/-- Replacing a record by one like it. -/
theorem of_store {requestId : Nat} {parent other : ResponderInflight} {event : Event}
    (found : world.responder.responderInflight requestId = some parent)
    (alike : parent.Alike other) (quiet : event.aside = true) :
    Aside world
      { world with
        responder := world.responder.setResponderInflight requestId other
        trace := world.trace ++ [event] } := by
  refine of_events rfl rfl rfl rfl rfl ?_ rfl (by simpa using quiet) (List.nil_append _).symm
  intro key
  by_cases own : key = requestId
  · simpa [LoopWorker.setResponderInflight, own, found] using Option.Rel.some alike
  · simpa [LoopWorker.setResponderInflight, own] using rel_alike_refl _

theorem of_recordCompletion (world : World) (completion : BackendCompletion) :
    Aside world (recordCompletion world completion) := by
  unfold recordCompletion
  cases found : world.responder.responderInflight completion.parentRequestId with
  | some parent => exact of_store found (parent.alike_record completion) rfl
  | none =>
      exact of_events rfl rfl rfl rfl rfl (fun _ => rel_alike_refl _) rfl
        (by simp [Event.aside]) (List.nil_append _).symm

theorem of_completions (world : World) (completions : List BackendCompletion) :
    Aside world (completions.foldl recordCompletion world) := by
  induction completions generalizing world with
  | nil => exact .refl world
  | cons completion completions induction =>
      exact (of_recordCompletion world completion).trans (induction _)

theorem of_flush (world : World) (accepted : Nat) :
    Aside world (tryFlushBackendRequests accepted world).2 := by
  unfold tryFlushBackendRequests
  simp only
  split
  · exact .refl world
  · split
    · exact .refl world
    · refine of_events rfl rfl rfl rfl rfl (fun _ => rel_alike_refl _) rfl ?_
        (List.nil_append _).symm
      intro event member
      obtain ⟨request, -, rfl⟩ := List.mem_map.mp member
      rfl

theorem of_deliverResponse (world : World) (response : ResponseDatagram) :
    Aside world (world.deliverResponse response) := by
  unfold World.deliverResponse LocalTransport.tryPushResponse
  split
  · exact .refl world
  · rename_i transport pushed
    split at pushed
    · cases pushed
    · injection pushed with pushed
      subst pushed
      exact of_events rfl rfl rfl rfl rfl (fun _ => rel_alike_refl _) rfl
        (by simp [Event.aside]) (List.nil_append _).symm

theorem of_takeRequest (world : World) : Aside world world.takeRequest := by
  unfold World.takeRequest LocalTransport.tryPopRequest
  cases requests : world.transport.requests with
  | nil => exact .refl world
  | cons request rest =>
      have dropped : world.transport.requests = [request] ++ rest := requests
      exact of_events rfl rfl rfl rfl rfl (fun _ => rel_alike_refl _) rfl
        (by simp [Event.aside]) dropped

theorem begun (aside : Aside world next) (request : RequestDatagram) :
    next.begun request = world.begun request := by
  unfold World.begun
  have related := aside.inflight request.parentRequestId
  generalize world.responder.responderInflight request.parentRequestId = before at related
  generalize next.responder.responderInflight request.parentRequestId = after at related
  cases related with
  | none => rfl
  | some alike => rw [alike]; rfl

theorem holder (aside : Aside world next) : next.holder = world.holder := by
  unfold World.holder
  rw [aside.pendingRequest]
  simp only [aside.begun]

theorem unadmitted (aside : Aside world next) : next.unadmitted = world.unadmitted := by
  unfold World.unadmitted
  rw [aside.pendingRequest]
  simp only [aside.begun]

end Aside

theorem Carried.aside {admission : Admission} {parent other : ResponderInflight}
    (carried : Carried world admission parent) (aside : Aside world next)
    (alike : parent.Alike other) : Carried next admission other := by
  refine ⟨?_, ?_, ?_, ?_, ?_, ?_, ?_, ?_⟩
  · rw [alike]
    exact carried.opcode
  · rw [alike]
    exact carried.hasReceive
  · rw [alike]
    exact carried.receiveWrId
  · rw [alike]
    exact carried.byteLength
  · rw [alike]
    exact carried.immediateData
  · rw [alike]
    exact carried.nonempty
  · rw [alike]
    exact carried.consumed
  · intro start
    have start : parent.nextPayloadIndex = 0 := by
      rw [alike] at start
      exact start
    obtain ⟨pending, addressed, valid⟩ := carried.first start
    refine ⟨aside.pendingRequest.trans pending, ?_, (alike.validPayload _).trans valid⟩
    exact ⟨addressed.1.trans aside.qpNum.symm, addressed.2⟩

namespace Accounted

/-- A step beside the receive side keeps the ledger as it is. -/
theorem aside (accounted : Accounted world ledger) (aside : Aside world next) :
    Accounted next ledger where
  slots := by rw [aside.receiveQueue]; exact accounted.slots
  order := by rw [aside.order]; exact accounted.order
  distinct := by rw [aside.order]; exact accounted.distinct
  present := by
    intro requestId found
    rw [aside.order]
    apply accounted.present requestId
    intro absent
    have related := aside.inflight requestId
    rw [absent] at related
    generalize next.responder.responderInflight requestId = after at related found
    cases related
    exact found rfl
  carried := by
    intro admission member
    obtain ⟨parent, found, carried⟩ := accounted.carried admission member
    have related := aside.inflight admission.requestId
    rw [found] at related
    generalize after : next.responder.responderInflight admission.requestId = other at related
    cases related with
    | some alike => exact ⟨_, rfl, carried.aside aside alike⟩
  kinds := accounted.kinds
  answered := accounted.answered
  claims := by rw [aside.holder, aside.receiveQueue]; exact accounted.claims
  peeked := by rw [aside.holder, aside.receiveQueue]; exact accounted.peeked
  stocked := by rw [aside.receiveQueue]; exact accounted.stocked
  handedOver := by
    rw [World.handedOver, aside.disposed]
    exact accounted.handedOver
  completions := by rw [aside.received, aside.qpNum]; exact accounted.completions
  published := by
    rw [aside.publishedReceive, aside.polledReceive, aside.receiveCq]
    exact accounted.published
  sent := by
    have sent := accounted.sent
    rw [← List.append_assoc] at sent
    rw [aside.unadmitted, ← List.append_assoc]
    exact aside.requests _ sent

/-- A pending datagram that began a parent is the first datagram of that parent. -/
theorem admission_of_begun (accounted : Accounted world ledger) {request : RequestDatagram}
    (pending : world.responder.pendingRequest = some request)
    (begun : world.begun request = true) :
    ∃ admission ∈ ledger.inflight, admission.request = request ∧ ∃ parent,
      world.responder.responderInflight request.parentRequestId = some parent ∧
        parent.nextPayloadIndex = 0 ∧ Carried world admission parent := by
  unfold World.begun at begun
  cases found : world.responder.responderInflight request.parentRequestId with
  | none => simp [found] at begun
  | some parent =>
      have start : parent.nextPayloadIndex = 0 := by simpa [found] using begun
      have member := accounted.present request.parentRequestId (by simp [found])
      rw [← accounted.order] at member
      obtain ⟨admission, member, same⟩ := List.mem_map.mp member
      obtain ⟨other, foundOther, carried⟩ := accounted.carried admission member
      rw [same, found] at foundOther
      injection foundOther with equal
      subst equal
      have first := (carried.first start).1
      rw [pending] at first
      injection first with first
      exact ⟨admission, member, first.symm, parent, rfl, start, carried⟩

/-- Only the pending datagram can begin a parent. -/
theorem begun_of_first (accounted : Accounted world ledger) {admission : Admission}
    (member : admission ∈ ledger.inflight) {parent : ResponderInflight}
    (found : world.responder.responderInflight admission.requestId = some parent)
    (start : parent.nextPayloadIndex = 0) :
    world.responder.pendingRequest = some admission.request ∧
      world.begun admission.request = true := by
  obtain ⟨other, foundOther, carried⟩ := accounted.carried admission member
  rw [found] at foundOther
  injection foundOther with equal
  subst equal
  refine ⟨(carried.first start).1, ?_⟩
  have found : world.responder.responderInflight admission.request.parentRequestId =
      some parent := found
  simp [World.begun, found, start]

end Accounted

/-! ## Loading a request -/

section Load

theorem World.loaded_cases (world : World) :
    world.loaded = world ∧
        (world.responder.pendingRequest = none → world.transport.requests = []) ∨
      ∃ request rest, world.responder.pendingRequest = none ∧
        world.transport.requests = request :: rest ∧
        world.loaded =
          { world with
            transport := { world.transport with requests := rest }
            responder := { world.responder with pendingRequest := some request } } := by
  unfold World.loaded LocalTransport.tryPopRequest
  cases pending : world.responder.pendingRequest with
  | some request => exact .inl ⟨rfl, nofun⟩
  | none =>
      cases requests : world.transport.requests with
      | nil => exact .inl ⟨rfl, fun _ => rfl⟩
      | cons request rest => exact .inr ⟨request, rest, rfl, rfl, rfl⟩

theorem World.loaded_pending (world : World) :
    world.loaded.responder.pendingRequest = world.arriving := by
  unfold World.arriving
  rcases world.loaded_cases with ⟨same, empty⟩ | ⟨request, rest, pending, requests, loaded⟩
  · rw [same]
    cases pending : world.responder.pendingRequest with
    | some request => rfl
    | none => simp [empty pending]
  · simp [loaded, pending, requests]

theorem World.loaded_arriving (world : World) : world.loaded.arriving = world.arriving := by
  conv_lhs => unfold World.arriving
  rw [world.loaded_pending]
  cases arriving : world.arriving with
  | some request => rfl
  | none =>
      rcases world.loaded_cases with ⟨same, empty⟩ | ⟨request, rest, pending, requests, loaded⟩
      · rw [same]
        have pending := world.loaded_pending
        rw [same, arriving] at pending
        simp [empty pending]
      · simp [World.arriving, pending, requests] at arriving

theorem tryRequest_eq (service : QpService) (view : WorkerQpView) (world : World) :
    ∃ fresh, (tryRequest service view world).2 =
      match world.arriving with
      | none => world
      | some request => (handleRequest service view fresh request world.loaded).2 := by
  unfold tryRequest World.arriving World.loaded LocalTransport.tryPopRequest
  cases pending : world.responder.pendingRequest with
  | some request => exact ⟨false, rfl⟩
  | none =>
      cases requests : world.transport.requests with
      | nil => exact ⟨false, rfl⟩
      | cons request rest => exact ⟨true, rfl⟩

/-- Loading a request is not observed. -/
theorem ReceiveLedger.observe_loaded (ledger : ReceiveLedger) (world next : World) :
    ledger.observe world.loaded next = ledger.observe world next := by
  have arriving := world.loaded_arriving
  unfold ReceiveLedger.observe ReceiveLedger.admissions
  rcases world.loaded_cases with ⟨same, -⟩ | ⟨request, rest, pending, requests, loaded⟩
  · rw [same]
  · rw [arriving, loaded]

theorem ReceiveLedger.observe_same (ledger : ReceiveLedger)
    (items : next.receiveQueue.items = world.receiveQueue.items)
    (order : next.responder.responderOrder = world.responder.responderOrder) :
    ledger.observe world next = ledger := by
  simp [ReceiveLedger.observe, ReceiveLedger.admissions, items, order]

theorem Accounted.loaded (accounted : Accounted world ledger) :
    Accounted world.loaded ledger := by
  rcases world.loaded_cases with ⟨same, -⟩ | ⟨request, rest, pending, requests, loaded⟩
  · rw [same]
    exact accounted
  · -- No parent waits with its first datagram, since nothing is pending.
    have started : ∀ admission ∈ ledger.inflight, ∀ parent,
        world.responder.responderInflight admission.requestId = some parent →
        parent.nextPayloadIndex ≠ 0 := by
      intro admission member parent found start
      have first := (accounted.begun_of_first member found start).1
      rw [pending] at first
      cases first
    have unbegun : world.begun request = false := by
      unfold World.begun
      cases found : world.responder.responderInflight request.parentRequestId with
      | none => rfl
      | some parent =>
          have member := accounted.present request.parentRequestId (by simp [found])
          rw [← accounted.order] at member
          obtain ⟨admission, member, same⟩ := List.mem_map.mp member
          have later := started admission member parent (by rw [same, found])
          simp [later]
    have holder : world.loaded.holder = world.holder := by
      have begun : world.loaded.begun request = world.begun request := by rw [loaded]; rfl
      simp [World.holder, loaded] at begun ⊢
      simp [begun, unbegun, pending]
    have unadmitted : world.loaded.unadmitted = [request] := by
      have begun : world.loaded.begun request = world.begun request := by rw [loaded]; rfl
      simp [World.unadmitted, loaded] at begun ⊢
      simp [begun, unbegun]
    have sent := accounted.sent
    rw [World.unadmitted, pending, requests] at sent
    refine ⟨?_, ?_, ?_, ?_, ?_, accounted.kinds, accounted.answered, ?_, ?_, ?_, ?_, ?_, ?_, ?_⟩
    · rw [loaded]; exact accounted.slots
    · rw [loaded]; exact accounted.order
    · rw [loaded]; exact accounted.distinct
    · rw [loaded]; exact accounted.present
    · intro admission member
      obtain ⟨parent, found, carried⟩ := accounted.carried admission member
      refine ⟨parent, by rw [loaded]; exact found, ?_⟩
      exact
        { carried with
          first := fun start => absurd start (started admission member parent found) }
    · rw [holder, loaded]; exact accounted.claims
    · rw [holder, loaded]; exact accounted.peeked
    · rw [loaded]; exact accounted.stocked
    · rw [loaded]; exact accounted.handedOver
    · rw [loaded]; exact accounted.completions
    · rw [loaded]; exact accounted.published
    · rw [unadmitted, loaded]; exact sent

end Load

/-! ## Handling a request -/

/-- The state after a parent entered `responder_inflight_`. -/
def World.admitParent (service : QpService) (view : WorkerQpView) (request : RequestDatagram)
    (target : Nat) (receive : Option ReceiveWqeHeader) (receiveQueue : Fifo ReceiveWqeHeader)
    (world : World) : World :=
  { world with
    responder :=
      { world.responder.setResponderInflight request.parentRequestId
          (responderInflightOf request target receive) with
        responderOrder := world.responder.responderOrder ++ [request.parentRequestId] }
    receiveQueue
    trace := world.trace ++ [.resolved service view request] }

/-- The state after a payload of `parent` became a backend request, where `consumed` is
the record once its Receive WR is released. -/
def World.handOver (request : RequestDatagram) (parent consumed : ResponderInflight)
    (receiveQueue : Fifo ReceiveWqeHeader) (world : World) : World :=
  let backendRequest := backendRequestOf request parent.targetDaemonAddress
  { world with
    responder :=
      { world.responder.setResponderInflight request.parentRequestId
          (consumed.advance request) with
        pendingBackendRequests := world.responder.pendingBackendRequests ++ [backendRequest]
        pendingRequest := none }
    receiveQueue
    trace := world.trace ++ [.disposed request (.backendRequest backendRequest)] }

/-- The state after a request was answered with an error at once. -/
def World.refuse (request : RequestDatagram) (result : DatagramResult) (events : List Event)
    (world : World) : World :=
  let response : ResponseDatagram := { parentRequestId := request.parentRequestId, result }
  { world with
    transport := { world.transport with responses := world.transport.responses ++ [response] }
    responder := { world.responder with pendingRequest := none }
    trace := world.trace ++ events ++ [.responded response] }

theorem rejectRequest_cases (fresh : Bool) (request : RequestDatagram)
    (result : DatagramResult) (events : List Event) (world : World) :
    (rejectRequest fresh request result events world).2 = world ∨
      (rejectRequest fresh request result events world).2 =
        world.refuse request result events := by
  unfold rejectRequest LocalTransport.tryPushResponse
  simp only
  split
  · exact .inl rfl
  · rename_i transport pushed
    split at pushed
    · cases pushed
    · injection pushed with pushed
      subst pushed
      exact .inr rfl

theorem acceptPayload_cases (fresh : Bool) (request : RequestDatagram)
    (parent : ResponderInflight) (nonempty : parent.payloadCount ≠ 0) (world : World) :
    (acceptPayload fresh request parent world).2 = world ∨
      validPayload request parent = false ∧
        (acceptPayload fresh request parent world).2 =
          { world with
            responder :=
              world.responder.setResponderInflight request.parentRequestId
                { parent with parentError := .remoteInvalidRequest }
            trace := world.trace ++ [.invalidPayload request] } ∨
      validPayload request parent = true ∧ ∃ consumed receiveQueue,
        consumeReceive parent world.receiveQueue = .ok (consumed, receiveQueue) ∧
          (acceptPayload fresh request parent world).2 =
            world.handOver request parent consumed receiveQueue := by
  unfold acceptPayload
  by_cases invalid : validPayload request parent = false
  · rw [if_pos invalid]
    exact .inr (.inl ⟨invalid, rfl⟩)
  · rw [if_neg invalid, if_neg nonempty]
    rw [Bool.not_eq_false] at invalid
    split
    · exact .inl rfl
    · simp only
      split
      · exact .inl rfl
      · rename_i consumed receiveQueue released
        exact .inr (.inr ⟨invalid, consumed, receiveQueue, released, rfl⟩)

/-- The first datagram of a parent fits the record made from it. -/
theorem validPayload_first {request : RequestDatagram} (valid : validFirst request = true)
    (target : Nat) (receive : Option ReceiveWqeHeader) :
    validPayload request (responderInflightOf request target receive) = true := by
  simp only [validFirst, decide_eq_true_eq] at valid
  obtain ⟨index, offset, empty | ⟨count, -, length, within, -⟩⟩ := valid
  · simp [validPayload, responderInflightOf, index, offset, empty]
  · have positive : 0 < request.payloadCount := Nat.pos_of_ne_zero count
    simp [validPayload, responderInflightOf, index, offset, count, length, within, positive]

theorem validFirst_payloadCount {request : RequestDatagram} (valid : validFirst request = true)
    (nonempty : request.parentTotalLength ≠ 0) : request.payloadCount ≠ 0 := by
  simp only [validFirst, decide_eq_true_eq] at valid
  obtain ⟨-, -, empty | nonzero⟩ := valid
  · exact absurd empty.2.1 nonempty
  · exact nonzero.1

/-- What a datagram that fits its parent says about it. -/
theorem validPayload_index {request : RequestDatagram}
    {parent : ResponderInflight} (valid : validPayload request parent = true)
    (nonempty : parent.payloadCount ≠ 0) :
    request.opcode = parent.opcode ∧ request.payloadIndex = parent.nextPayloadIndex := by
  simp only [validPayload, decide_eq_true_eq] at valid
  obtain ⟨-, -, opcode, -, -, -, -, -, empty | ⟨-, index, -⟩⟩ := valid
  · exact absurd empty.1 nonempty
  · exact ⟨opcode, index⟩

/-- The peek for a new parent takes the head of the queue for a write with immediate
data and leaves the queue alone for an ordinary write. -/
theorem peekReceive_eq_ok {opcode : DatagramOpcode} {queue peeked : Fifo ReceiveWqeHeader}
    {receive : Option ReceiveWqeHeader}
    (ok : peekReceive opcode queue = .ok (receive, peeked)) :
    opcode = .rdmaWrite ∧ receive = none ∧ peeked = queue ∨
      opcode = .rdmaWriteWithImmediate ∧ queue.peeked = 0 ∧
        ∃ first rest, queue.items = first :: rest ∧ receive = some first ∧
          peeked = { queue with peeked := 1 } := by
  cases opcode with
  | rdmaWrite =>
      simp only [peekReceive, Except.ok.injEq, Prod.mk.injEq] at ok
      exact .inl ⟨rfl, ok.1.symm, ok.2.symm⟩
  | rdmaWriteWithImmediate =>
      unfold peekReceive at ok
      simp only at ok
      split at ok
      · cases ok
      · rename_i first held peek
        simp only [Except.ok.injEq, Prod.mk.injEq] at ok
        obtain ⟨rfl, rfl⟩ := ok
        obtain ⟨closed, head, rfl⟩ := Fifo.peek_eq_ok peek
        cases items : queue.items with
        | nil => rw [items] at head; cases head
        | cons other rest =>
            rw [items] at head
            injection head with head
            exact .inr ⟨rfl, closed, first, rest, by rw [head], rfl, rfl⟩

namespace Accounted

/-- A request that is answered with an error began no parent. -/
theorem unbegun_of_rejects (accounted : Accounted world ledger) {request : RequestDatagram}
    (pending : world.responder.pendingRequest = some request) {result : DatagramResult}
    {disposal : Disposal} {resolution : List Event}
    (reason : Rejects world request result disposal resolution) :
    world.begun request = false := by
  rw [← Bool.not_eq_true]
  intro begun
  obtain ⟨admission, -, same, parent, found, start, carried⟩ :=
    accounted.admission_of_begun pending begun
  cases reason with
  | target misaddressed =>
      have addressed := (carried.first start).2.1
      rw [same] at addressed
      exact misaddressed addressed
  | first addressed absent =>
      rw [absent] at found
      cases found
  | access service view status addressed absent =>
      rw [absent] at found
      cases found

theorem refuse (accounted : Accounted world ledger) {request : RequestDatagram}
    (pending : world.responder.pendingRequest = some request) {result : DatagramResult}
    {disposal : Disposal} {resolution : List Event}
    (reason : Rejects world request result disposal resolution) :
    Accounted (world.refuse request result (resolution ++ [.disposed request disposal]))
      ledger := by
  have unbegun := accounted.unbegun_of_rejects pending reason
  have noBackend : disposal.backendRequest? = none := by cases reason <;> rfl
  have quiet : ∀ event ∈ resolution, event.aside = true := by
    cases reason <;> simp [Event.aside]
  have holder : world.holder = none := by simp [World.holder, pending, unbegun]
  have sent := accounted.sent
  have claims := accounted.claims
  have peeked := accounted.peeked
  rw [holder] at claims peeked
  have silent : ∀ {α : Type} {projection : Event → Option α},
      (∀ event, event.aside = true → projection event = none) →
      resolution.filterMap projection = [] := fun unseen =>
    List.filterMap_eq_nil_iff.mpr fun event member => unseen event (quiet event member)
  refine ⟨accounted.slots, accounted.order, accounted.distinct, accounted.present, ?_,
    accounted.kinds, accounted.answered, claims, peeked, accounted.stocked, ?_, ?_, ?_, ?_⟩
  · intro admission member
    obtain ⟨parent, found, carried⟩ := accounted.carried admission member
    refine ⟨parent, found, { carried with first := fun start => ?_ }⟩
    obtain ⟨first, begun⟩ := accounted.begun_of_first member found start
    rw [pending] at first
    injection first with first
    rw [← first, unbegun] at begun
    cases begun
  · have disposed : resolution.filterMap Event.disposed? = [] :=
      silent fun event own => by cases event <;> first | rfl | cases own
    rw [accounted.handedOver]
    simp [World.handedOver, World.disposed, World.refuse, disposed, handedOver?, noBackend]
  · have received : resolution.filterMap Event.received? = [] :=
      silent fun event own => by cases event <;> first | rfl | cases own
    have completions := accounted.completions
    unfold World.received at completions
    simpa [World.received, World.refuse, received, List.filterMap_cons] using completions
  · have publishes : resolution.filterMap Event.publishedReceive? = [] :=
      silent fun event own => by cases event <;> first | rfl | cases own
    have polls : resolution.filterMap Event.polledReceive? = [] :=
      silent fun event own => by cases event <;> first | rfl | cases own
    have published := accounted.published
    unfold World.publishedReceive World.polledReceive at published
    simpa [World.publishedReceive, World.polledReceive, World.refuse, publishes, polls,
      List.filterMap_cons] using published
  · have sends : resolution.filterMap Event.sent? = [] :=
      silent fun event own => by cases event <;> first | rfl | cases own
    refine (?_ : List.Sublist _ _).trans (sent.trans ?_)
    · exact List.Sublist.append_left (List.Sublist.append_right (List.nil_sublist _) _) _
    · simp [World.sent, World.refuse, sends]

/-- A new parent takes the Receive WR at the head of the queue. -/
theorem admitParent (accounted : Accounted world ledger) (service : QpService)
    (view : WorkerQpView) (target : Nat) {request : RequestDatagram}
    {receive : Option ReceiveWqeHeader} {receiveQueue : Fifo ReceiveWqeHeader}
    (pending : world.responder.pendingRequest = some request)
    (addressed : Addressed world request)
    (absent : world.responder.responderInflight request.parentRequestId = none)
    (valid : validFirst request = true) (nonempty : request.parentTotalLength ≠ 0)
    (peeked : peekReceive request.opcode world.receiveQueue = .ok (receive, receiveQueue)) :
    Accounted (world.admitParent service view request target receive receiveQueue)
      { ledger with inflight := ledger.inflight ++ [⟨request, receive⟩] } := by
  have outside : request.parentRequestId ∉ world.responder.responderOrder := by
    rw [← accounted.order]
    intro member
    obtain ⟨admission, member, same⟩ := List.mem_map.mp member
    obtain ⟨parent, found, -⟩ := accounted.carried admission member
    rw [same, absent] at found
    cases found
  have unbegun : world.begun request = false := by simp [World.begun, absent]
  have before : world.holder = none := by simp [World.holder, pending, unbegun]
  have begun : (world.admitParent service view request target receive receiveQueue).begun request =
      true := by
    simp [World.begun, World.admitParent, LoopWorker.setResponderInflight, responderInflightOf]
  have items : receiveQueue.items = world.receiveQueue.items := by
    rcases peekReceive_eq_ok peeked with ⟨-, -, rfl⟩ | ⟨-, -, -, -, -, -, rfl⟩ <;> rfl
  have kind : receive.isSome ↔ request.opcode = .rdmaWriteWithImmediate := by
    rcases peekReceive_eq_ok peeked with ⟨write, rfl, -⟩ | ⟨write, -, -, -, -, rfl, -⟩ <;>
      simp [write]
  have claims := accounted.claims
  have closed := accounted.peeked
  rw [before] at claims closed
  have stays : (world.admitParent service view request target receive
      receiveQueue).responder.pendingRequest = some request := pending
  have held : (world.admitParent service view request target receive receiveQueue).holder =
      if request.opcode = .rdmaWriteWithImmediate then some request else none := by
    simp only [World.holder, stays, Option.filter_some, begun, true_and]
    split <;> simp_all
  have extended : ({ ledger with inflight := ledger.inflight ++ [⟨request, receive⟩] } :
      ReceiveLedger).admitted = ledger.admitted ++ [⟨request, receive⟩] :=
    (List.append_assoc _ _ _).symm
  refine ⟨?_, ?_, ?_, ?_, ?_, ?_, accounted.answered, ?_, ?_, ?_, ?_, ?_, ?_, ?_⟩
  · exact accounted.slots.trans (by rw [← items]; rfl)
  · rw [List.map_append, accounted.order]
    rfl
  · exact List.nodup_append.mpr ⟨accounted.distinct, List.nodup_singleton _,
      fun first member second other => by
        rw [List.mem_singleton.mp other]
        exact fun equal => outside (equal ▸ member)⟩
  · intro requestId found
    by_cases own : requestId = request.parentRequestId
    · exact List.mem_append_right _ (by simp [own])
    · refine List.mem_append_left _ (accounted.present requestId ?_)
      simpa [World.admitParent, LoopWorker.setResponderInflight, own] using found
  · intro admission member
    rcases List.mem_append.mp member with member | member
    · obtain ⟨parent, found, carried⟩ := accounted.carried admission member
      have other : admission.requestId ≠ request.parentRequestId := by
        intro same
        rw [same, absent] at found
        cases found
      refine ⟨parent, ?_, { carried with first := carried.first }⟩
      simpa [World.admitParent, LoopWorker.setResponderInflight, other] using found
    · rw [List.mem_singleton] at member
      subst member
      refine ⟨responderInflightOf request target receive, Function.update_self _ _ _, ?_⟩
      refine ⟨rfl, rfl, ?_, ?_, rfl, validFirst_payloadCount valid nonempty, fun _ => by
        simp [responderInflightOf], fun _ => ?_⟩
      · rintro first rfl
        rfl
      · have bounded := addressed.2
        simp only [responderInflightOf]
        omega
      · exact ⟨pending, addressed, validPayload_first valid target receive⟩
  · intro admission member
    rw [extended] at member
    rcases List.mem_append.mp member with member | member
    · exact accounted.kinds admission member
    · rw [List.mem_singleton.mp member]
      exact kind
  · rw [ReceiveLedger.claims, extended, List.filterMap_append,
      ← ReceiveLedger.claims, claims, held]
    rcases peekReceive_eq_ok peeked with ⟨write, rfl, -⟩ | ⟨write, -, first, rest, head, rfl, rfl⟩
    · simp [write, Admission.claim]
    · simp [write, Admission.claim, World.admitParent, head]
  · rw [held]
    rcases peekReceive_eq_ok peeked with ⟨write, rfl, rfl⟩ | ⟨write, -, first, rest, head, rfl, rfl⟩
    · simpa [write, World.admitParent] using closed
    · simp [write, World.admitParent]
  · rcases peekReceive_eq_ok peeked with ⟨write, rfl, rfl⟩ | ⟨write, -, first, rest, head, rfl, rfl⟩
    · exact accounted.stocked
    · simp [World.admitParent, head]
  · have handedOver := accounted.handedOver
    unfold World.handedOver World.disposed at handedOver
    simpa [World.handedOver, World.disposed, World.admitParent] using handedOver
  · have completions := accounted.completions
    unfold World.received at completions
    simpa [World.received, World.admitParent, LoopWorker.setResponderInflight] using completions
  · have published := accounted.published
    unfold World.publishedReceive World.polledReceive at published
    simpa [World.publishedReceive, World.polledReceive, World.admitParent] using published
  · have sent := accounted.sent
    have waiting : world.unadmitted = [request] := by simp [World.unadmitted, pending, unbegun]
    have none : (world.admitParent service view request target receive receiveQueue).unadmitted =
        [] := by
      simp [World.unadmitted, stays, begun]
    rw [waiting] at sent
    rw [extended, none]
    unfold World.sent at sent
    simpa [World.sent, World.admitParent] using sent

/-- A payload handed over releases the Receive WR that its parent holds, if it is the
first of a write with immediate data, and none otherwise. -/
theorem taken_of_consumeReceive (accounted : Accounted world ledger)
    {request : RequestDatagram} (pending : world.responder.pendingRequest = some request)
    {parent consumed : ResponderInflight} {receiveQueue : Fifo ReceiveWqeHeader}
    (found : world.responder.responderInflight request.parentRequestId = some parent)
    (valid : validPayload request parent = true)
    (consumes : consumeReceive parent world.receiveQueue = .ok (consumed, receiveQueue))
    (backendRequest : BackendRequest) :
    ∃ taken : List ReceiveWqeHeader, taken.length ≤ 1 ∧
      world.receiveQueue.items = taken ++ receiveQueue.items ∧ receiveQueue.peeked = 0 ∧
      world.holder.toList.zip world.receiveQueue.items =
        taken.map (fun receive => (request, receive)) ∧
      (handedOver? (request, .backendRequest backendRequest)).toList =
        taken.map (fun _ => request) ∧
      (parent.hasReceive = true → consumed.receiveConsumed = true) := by
  have member := accounted.present request.parentRequestId (by simp [found])
  rw [← accounted.order] at member
  obtain ⟨admission, member, same⟩ := List.mem_map.mp member
  obtain ⟨other, foundOther, carried⟩ := accounted.carried admission member
  rw [same, found] at foundOther
  injection foundOther with equal
  subst equal
  have kind := accounted.kinds admission (List.mem_append_right _ member)
  obtain ⟨opcode, index⟩ := validPayload_index valid carried.nonempty
  have immediate : parent.hasReceive = true ↔ request.opcode = .rdmaWriteWithImmediate := by
    rw [carried.hasReceive, kind, opcode, carried.opcode]
  have begun : world.begun request = decide (parent.nextPayloadIndex = 0) := by
    simp [World.begun, found]
  have holder : world.holder =
      if parent.nextPayloadIndex = 0 ∧ request.opcode = .rdmaWriteWithImmediate then
        some request
      else
        none := by
    simp only [World.holder, pending, Option.filter_some, begun, decide_eq_true_eq]
  have handed : handedOver? (request, .backendRequest backendRequest) =
      if parent.nextPayloadIndex = 0 ∧ request.opcode = .rdmaWriteWithImmediate then
        some request
      else
        none := by
    simp [handedOver?, index]
  have peeked := accounted.peeked
  have stocked := accounted.stocked
  unfold consumeReceive at consumes
  split at consumes
  · rename_i releases
    obtain ⟨has, unconsumed⟩ := releases
    have start := (carried.consumed has).mp unconsumed
    rw [holder, if_pos ⟨start, immediate.mp has⟩] at peeked
    rw [Fifo.release_of_peeked peeked (Nat.le_refl 1)] at consumes
    simp only [Except.ok.injEq, Prod.mk.injEq] at consumes
    obtain ⟨rfl, rfl⟩ := consumes
    cases items : world.receiveQueue.items with
    | nil =>
        rw [items, peeked] at stocked
        cases stocked
    | cons first rest =>
        refine ⟨[first], Nat.le_refl 1, rfl, rfl, ?_, ?_, fun _ => rfl⟩
        · rw [holder, if_pos ⟨start, immediate.mp has⟩]
          rfl
        · rw [handed, if_pos ⟨start, immediate.mp has⟩]
          rfl
  · rename_i keeps
    simp only [Except.ok.injEq, Prod.mk.injEq] at consumes
    obtain ⟨rfl, rfl⟩ := consumes
    have none : ¬(parent.nextPayloadIndex = 0 ∧ request.opcode = .rdmaWriteWithImmediate) := by
      rintro ⟨start, write⟩
      have has := immediate.mpr write
      exact keeps ⟨has, (carried.consumed has).mpr start⟩
    rw [if_neg none] at holder handed
    rw [holder] at peeked
    refine ⟨[], Nat.zero_le 1, rfl, peeked, ?_, ?_, fun has => ?_⟩
    · rw [holder]
      rfl
    · rw [handed]
      rfl
    · rw [← Bool.not_eq_false]
      exact fun unconsumed => keeps ⟨has, unconsumed⟩

theorem handOver (accounted : Accounted world ledger) {request : RequestDatagram}
    (pending : world.responder.pendingRequest = some request)
    {parent consumed : ResponderInflight} {receiveQueue : Fifo ReceiveWqeHeader}
    (found : world.responder.responderInflight request.parentRequestId = some parent)
    (valid : validPayload request parent = true)
    (consumes : consumeReceive parent world.receiveQueue = .ok (consumed, receiveQueue)) :
    Accounted (world.handOver request parent consumed receiveQueue)
      (ledger.observe world (world.handOver request parent consumed receiveQueue)) := by
  obtain ⟨taken, single, items, closed, held, handed, released⟩ :=
    accounted.taken_of_consumeReceive pending found valid consumes
      (backendRequestOf request parent.targetDaemonAddress)
  have same := consumeReceive_eq_ok consumes
  have arriving : world.arriving = some request := by simp [World.arriving, pending]
  have observed : ledger.observe world (world.handOver request parent consumed receiveQueue) =
      { ledger with
        released := ledger.released ++ taken.map fun receive => (request, receive) } := by
    have zip : [request].zip taken = taken.map fun receive => (request, receive) := by
      cases taken with
      | nil => rfl
      | cons first rest =>
          cases rest with
          | nil => rfl
          | cons second rest => simp at single
    simp [ReceiveLedger.observe, ReceiveLedger.admissions, World.handOver, items, arriving, zip,
      LoopWorker.setResponderInflight]
  have slots := accounted.slots
  have claims := accounted.claims
  have idle : (world.handOver request parent consumed
      receiveQueue).responder.pendingRequest = none := rfl
  have holder : (world.handOver request parent consumed receiveQueue).holder = none := by
    simp [World.holder, idle]
  rw [held] at claims
  rw [observed]
  refine ⟨?_, accounted.order, accounted.distinct, ?_, ?_, accounted.kinds,
    accounted.answered, ?_, ?_, ?_, ?_, ?_, ?_, ?_⟩
  · rw [slots, items]
    simp [World.handOver, Function.comp_def]
  · intro requestId present
    by_cases own : requestId = request.parentRequestId
    · rw [own]
      exact accounted.present _ (by simp [found])
    · refine accounted.present requestId ?_
      simpa [World.handOver, LoopWorker.setResponderInflight, own] using present
  · intro admission member
    obtain ⟨other, foundOther, carried⟩ := accounted.carried admission member
    by_cases own : admission.requestId = request.parentRequestId
    · rw [own, found] at foundOther
      injection foundOther with equal
      subst equal
      refine ⟨consumed.advance request, ?_, ?_⟩
      · simp [World.handOver, LoopWorker.setResponderInflight, own]
      · rw [same]
        refine ⟨carried.opcode, carried.hasReceive, carried.receiveWrId, carried.byteLength,
          carried.immediateData, carried.nonempty, fun has => ?_, fun start => ?_⟩
        · simp [ResponderInflight.advance, released has]
        · simp [ResponderInflight.advance] at start
    · refine ⟨other, ?_, { carried with first := fun start => ?_ }⟩
      · simpa [World.handOver, LoopWorker.setResponderInflight, own] using foundOther
      · have first := (carried.first start).1
        rw [pending] at first
        injection first with first
        exact absurd (congrArg RequestDatagram.parentRequestId first).symm own
  · rw [holder]
    simpa [ReceiveLedger.claims, ReceiveLedger.admitted] using claims
  · rw [holder]
    exact closed
  · show receiveQueue.peeked ≤ _
    rw [closed]
    exact Nat.zero_le _
  · have handedOver := accounted.handedOver
    unfold World.handedOver World.disposed at handedOver
    simp [World.handedOver, World.disposed, World.handOver, handedOver, handed,
      Function.comp_def]
  · have completions := accounted.completions
    unfold World.received at completions
    simpa [World.received, World.handOver, LoopWorker.setResponderInflight] using completions
  · have published := accounted.published
    unfold World.publishedReceive World.polledReceive at published
    simpa [World.publishedReceive, World.polledReceive, World.handOver] using published
  · have sent := accounted.sent
    have shorter : (ledger.admitted.map Admission.request ++ world.transport.requests).Sublist
        world.sent :=
      (List.Sublist.append_left (List.sublist_append_right _ _) _).trans sent
    have unadmitted : (world.handOver request parent consumed receiveQueue).unadmitted =
        [] := by
      simp [World.unadmitted, idle]
    rw [unadmitted]
    unfold World.sent at shorter
    simpa [World.sent, World.handOver, ReceiveLedger.admitted] using shorter

end Accounted

end Ugdr.Worker
