import Ugdr.Worker.ResponderSound

/-! # A parent in flight over many calls

A parent in flight stays in flight with its cursor not going back, and at the head of
`responder_order_` once it is there, until a call removes it with one response. As long as the
payloads that are accepted leave room, there are bytes for all the payloads it waits for.
-/

namespace Ugdr.Worker

open Ugdr.Queue Ugdr.Control
open Ugdr.Control.QpService (WorkerQpView)

variable {world middle next : World} {requestId : Nat}

/-! ## Staying in flight -/

/-- The parent, if it was in flight, still is, and has not moved back. -/
structure Later (requestId : Nat) (world next : World) : Prop where
  inflight : ∀ parent, world.responder.responderInflight requestId = some parent →
    ∃ other, next.responder.responderInflight requestId = some other ∧
      other.payloadCount = parent.payloadCount ∧
      parent.nextPayloadIndex ≤ other.nextPayloadIndex
  head : world.responder.responderOrder.head? = some requestId →
    next.responder.responderOrder.head? = some requestId

namespace Later

theorem refl (requestId : Nat) (world : World) : Later requestId world world :=
  ⟨fun parent found => ⟨parent, found, rfl, Nat.le_refl _⟩, id⟩

theorem trans (first : Later requestId world middle) (second : Later requestId middle next) :
    Later requestId world next := by
  refine ⟨fun parent found => ?_, second.head ∘ first.head⟩
  obtain ⟨between, found, count, index⟩ := first.inflight parent found
  obtain ⟨other, found, counts, indices⟩ := second.inflight between found
  exact ⟨other, found, counts.trans count, index.trans indices⟩

theorem of_sameWork (same : SameWork world next) : Later requestId world next := by
  refine ⟨fun parent found => ?_, fun head => by rw [same.order]; exact head⟩
  obtain ⟨other, found, cursor⟩ := same.forward requestId parent found
  exact ⟨other, found, cursor.payloadCount, cursor.nextPayloadIndex.ge⟩

/-- One parent enters or changes. -/
theorem of_update {changed : Nat} {other : ResponderInflight}
    (inflight : next.responder.responderInflight =
      Function.update world.responder.responderInflight changed (some other))
    (forward : ∀ parent, world.responder.responderInflight changed = some parent →
      other.payloadCount = parent.payloadCount ∧
        parent.nextPayloadIndex ≤ other.nextPayloadIndex)
    (head : world.responder.responderOrder.head? = some requestId →
      next.responder.responderOrder.head? = some requestId) : Later requestId world next := by
  refine ⟨fun parent found => ?_, head⟩
  rw [inflight]
  by_cases own : requestId = changed
  · subst own
    exact ⟨other, Function.update_self _ _ _, forward parent found⟩
  · exact ⟨parent, (Function.update_of_ne own _ _).trans found, rfl, Nat.le_refl _⟩

theorem loaded (requestId : Nat) (world : World) : Later requestId world world.loaded := by
  rcases world.loaded_cases with ⟨same, -⟩ | ⟨request, rest, -, -, loaded⟩
  · rw [same]
    exact .refl requestId world
  · rw [loaded]
    exact ⟨fun parent found => ⟨parent, found, rfl, Nat.le_refl _⟩, id⟩

theorem requestStep {service : QpService} {view : WorkerQpView}
    (step : RequestStep service view world next) : Later requestId world next := by
  cases step with
  | refuse => exact ⟨fun parent found => ⟨parent, found, rfl, Nat.le_refl _⟩, id⟩
  | spoil request parent pending addressed found invalid =>
      refine .of_update rfl (fun stored present => ?_) id
      rw [found] at present
      injection present with present
      exact present ▸ ⟨rfl, Nat.le_refl _⟩
  | handOver request parent consumed receiveQueue pending addressed found valid consumes =>
      refine .of_update rfl (fun stored present => ?_) id
      rw [found] at present
      injection present with present
      subst present
      obtain ⟨released, rfl⟩ := consumeReceive_eq consumes
      exact ⟨rfl, Nat.le_succ _⟩
  | admitParent request target receive receiveQueue pending addressed absent valid resolved
      peeked =>
      refine .of_update rfl (fun stored present => ?_) fun head => ?_
      · rw [absent] at present
        cases present
      · change (world.responder.responderOrder ++ [request.parentRequestId]).head? = _
        rw [List.head?_append, head]
        rfl

theorem requestSteps {service : QpService} {view : WorkerQpView}
    (steps : RequestSteps service view world next) : Later requestId world next := by
  induction steps with
  | refl => exact .refl requestId world
  | tail steps step induction => exact induction.trans (.requestStep step)

end Later

namespace Later

theorem answer (view : WorkerQpView) {parent : ResponderInflight} {order : List Nat}
    {answered : Nat} (head : world.responder.responderOrder = answered :: order)
    (other : requestId ≠ answered) : Later requestId world (world.answer view answered parent) := by
  refine ⟨fun stored present => ?_, fun first => ?_⟩
  · exact ⟨stored, (Function.update_of_ne other _ _).trans present, rfl, Nat.le_refl _⟩
  · rw [head] at first
    injection first with same
    exact absurd same.symm other

end Later

/-! ## Leaving -/

/-- A call removes no parent, except that it answers the one at the head of
`responder_order_`. -/
theorem tryParentResponse_later (view : WorkerQpView) {outstanding : List BackendRequest}
    (sound : Sound outstanding world) (requestId : Nat) :
    Later requestId world (tryParentResponse view world).2 ∨
      ∃ parent, world.responder.responderInflight requestId = some parent ∧
        (tryParentResponse view world).2 = world.answer view requestId parent := by
  unfold tryParentResponse
  cases head : world.responder.responderOrder with
  | nil => exact .inl (.refl requestId world)
  | cons answered order =>
      simp only
      cases found : world.responder.responderInflight answered with
      | none =>
          have member : answered ∈ world.responder.responderOrder := by
            rw [head]
            exact List.mem_cons_self
          exact absurd found ((sound.listed answered).mp member)
      | some parent =>
          simp only
          split
          · exact .inl (.refl requestId world)
          · rcases answerParent_cases view answered parent world with same | answers
            · rw [same]
              exact .inl (.refl requestId world)
            · rw [answers]
              by_cases own : requestId = answered
              · subst own
                exact .inr ⟨parent, found, rfl⟩
              · exact .inl (.answer view head own)

theorem ResponderCall.later_or_retires {services : QpService → Prop}
    {fits : QpService → WorkerQpView → World → Prop} {state next : ResponderState}
    (sound : Sound state.outstanding state.world)
    (reachable : ∀ service, services service → service.Reachable)
    (call : ResponderCall services fits state next) (requestId : Nat) :
    Later requestId state.world next.world ∨ Retires requestId state next := by
  cases call with
  | surroundings world moved => exact .inl (.of_sameWork (.of_surroundings moved))
  | completions completed rest phase batch accepted =>
      exact .inl (.of_sameWork (.tryBackendCompletions _ state.world))
  | response service view phase serves found =>
      rcases tryParentResponse_later view sound requestId with later | ⟨parent, present, answers⟩
      · exact .inl later
      · refine .inr ⟨by rw [present]; exact nofun, ?_, parent.result, ?_⟩
        · simp only [answers]
          exact Function.update_self _ _ _
        · simp only [answers]
          rfl
  | flush accepted phase =>
      exact .inl (.of_sameWork (.tryFlushBackendRequests accepted state.world))
  | request service view offered phase serves found fitting =>
      have qpNum := QpService.workerQpView_qpNum (reachable service serves).valid found
      have offers := SameWork.offer state.world offered
      have steps := @tryRequest_steps (state.world.offer offered) service view qpNum
        fun _ _ present => sound.nonempty present
      exact .inl ((Later.of_sameWork offers).trans
        ((Later.loaded requestId _).trans (.requestSteps steps)))

theorem qpNum_requestSteps {service : QpService} {view : WorkerQpView}
    (steps : RequestSteps service view world next) :
    next.responder.qpNum = world.responder.qpNum := by
  induction steps with
  | refl => rfl
  | tail steps step induction => cases step <;> exact induction

theorem tryParentResponse_keeps (view : WorkerQpView) (world : World) :
    (tryParentResponse view world).2.responder.qpNum = world.responder.qpNum ∧
      (tryParentResponse view world).2.responder.pendingRequest =
        world.responder.pendingRequest := by
  simp only [tryParentResponse]
  split
  · exact ⟨rfl, rfl⟩
  · split
    · exact ⟨rfl, rfl⟩
    · split
      · exact ⟨rfl, rfl⟩
      · rename_i requestId _ _ _ parent _ _
        rcases answerParent_cases view requestId parent world with same | answers
        · rw [same]
          exact ⟨rfl, rfl⟩
        · rw [answers]
          exact ⟨rfl, rfl⟩

/-- The QP of a responder stays the same. -/
theorem ResponderCall.qpNum {services : QpService → Prop}
    {fits : QpService → WorkerQpView → World → Prop} {state next : ResponderState}
    (sound : Sound state.outstanding state.world)
    (reachable : ∀ service, services service → service.Reachable)
    (call : ResponderCall services fits state next) :
    next.world.responder.qpNum = state.world.responder.qpNum := by
  cases call with
  | surroundings world moved => exact congrArg LoopWorker.qpNum moved.responder
  | completions completed rest phase batch accepted =>
      exact (SameWork.tryBackendCompletions _ state.world).qpNum
  | response service view phase serves found =>
      exact (tryParentResponse_keeps view state.world).1
  | flush accepted phase => exact (SameWork.tryFlushBackendRequests accepted state.world).qpNum
  | request service view offered phase serves found fitting =>
      have qpNum := QpService.workerQpView_qpNum (reachable service serves).valid found
      have steps := @tryRequest_steps (state.world.offer offered) service view qpNum
        fun _ _ present => sound.nonempty present
      refine (qpNum_requestSteps steps).trans ?_
      rcases (state.world.offer offered).loaded_cases with ⟨same, -⟩ | ⟨_, _, -, -, loaded⟩
      · rw [same]
        rfl
      · rw [loaded]
        rfl

/-! ## Room for the payloads to come -/

/-- There is a byte for every payload that the parent waits for. -/
def ResponderInflight.HasRoom (parent : ResponderInflight) : Prop :=
  parent.payloadCount - parent.nextPayloadIndex ≤
    parent.parentTotalLength - parent.nextPayloadOffset

/-- The parent has room, also behind its pending payload. -/
structure Roomy (requestId : Nat) (world : World) : Prop where
  room : ∀ parent, world.responder.responderInflight requestId = some parent → parent.HasRoom
  pending : ∀ request parent, world.responder.pendingRequest = some request →
    request.parentRequestId = requestId →
    world.responder.responderInflight requestId = some parent → Addressed world request →
    validPayload request parent = true → LeavesRoom request

/-- The same during a call, where the pending datagram may also begin the parent. -/
structure Provided (service : QpService) (view : WorkerQpView) (requestId : Nat)
    (world : World) : Prop where
  room : ∀ parent, world.responder.responderInflight requestId = some parent → parent.HasRoom
  pending : ∀ request, world.responder.pendingRequest = some request →
    request.parentRequestId = requestId → world.TakesUp service view request →
    LeavesRoom request

namespace Provided

variable {service : QpService} {view : WorkerQpView} {outstanding : List BackendRequest}

theorem roomy (provided : Provided service view requestId world) : Roomy requestId world := by
  refine ⟨provided.room, fun request parent pending own found addressed valid => ?_⟩
  apply provided.pending request pending own
  refine ⟨addressed, ?_⟩
  rw [own, found]
  exact valid

theorem loaded (room : ∀ parent, world.responder.responderInflight requestId = some parent →
      parent.HasRoom)
    (leaves : ∀ request, world.arriving = some request → request.parentRequestId = requestId →
      world.TakesUp service view request → LeavesRoom request) :
    Provided service view requestId world.loaded := by
  have pending := world.loaded_pending
  rcases world.loaded_cases with ⟨same, -⟩ | ⟨request, rest, -, -, loaded⟩
  · rw [same] at pending ⊢
    refine ⟨room, fun request present => ?_⟩
    rw [pending] at present
    exact leaves request present
  · rw [loaded] at pending ⊢
    refine ⟨room, fun other present => ?_⟩
    rw [pending] at present
    exact leaves other present

theorem handOver {request : RequestDatagram} {parent : ResponderInflight} (released : Bool)
    (receiveQueue : Fifo ReceiveWqeHeader)
    (provided : Provided service view requestId world) (sound : Sound outstanding world)
    (pending : world.responder.pendingRequest = some request)
    (addressed : Addressed world request)
    (found : world.responder.responderInflight request.parentRequestId = some parent)
    (valid : validPayload request parent = true) :
    Provided service view requestId
      (world.handOver request parent { parent with receiveConsumed := released } receiveQueue)
    := by
  refine ⟨fun other present => ?_, nofun⟩
  by_cases own : requestId = request.parentRequestId
  · subst own
    change Function.update _ _ _ _ = _ at present
    rw [Function.update_self] at present
    injection present with present
    subst present
    have leaves : LeavesRoom request := by
      apply provided.pending request pending rfl
      refine ⟨addressed, ?_⟩
      rw [found]
      exact valid
    obtain ⟨index, -, offset, -, -, total, count⟩ :=
      (sound.parents _ parent found).1.valid_spec valid
    unfold LeavesRoom at leaves
    rw [index, offset, total, count] at leaves
    exact leaves
  · change Function.update _ _ _ _ = _ at present
    rw [Function.update_of_ne own] at present
    exact provided.room other present

theorem admitParent {request : RequestDatagram} {target : Nat}
    (receive : Option ReceiveWqeHeader) (receiveQueue : Fifo ReceiveWqeHeader)
    (provided : Provided service view requestId world)
    (pending : world.responder.pendingRequest = some request)
    (addressed : Addressed world request)
    (absent : world.responder.responderInflight request.parentRequestId = none)
    (valid : validFirst request = true)
    (resolved : service.resolveRkey view.sessionId view.pdIdentity request.rkey
      request.remoteAddress request.parentTotalLength = .ok target) :
    Provided service view requestId
      (world.admitParent service view request target receive receiveQueue) := by
  refine ⟨fun parent present => ?_, fun other other_pending own _ => ?_⟩
  · by_cases own : requestId = request.parentRequestId
    · subst own
      change Function.update _ _ _ _ = _ at present
      rw [Function.update_self] at present
      injection present with present
      subst present
      simp only [validFirst, decide_eq_true_eq] at valid
      change request.payloadCount - 0 ≤ request.parentTotalLength - 0
      omega
    · change Function.update _ _ _ _ = _ at present
      rw [Function.update_of_ne own] at present
      exact provided.room parent present
  · have same : some request = some other := pending.symm.trans other_pending
    injection same with same
    subst same
    apply provided.pending request pending own
    refine ⟨addressed, ?_⟩
    rw [absent]
    exact ⟨valid, target, resolved⟩

theorem requestStep (provided : Provided service view requestId world)
    (sound : Sound outstanding world) (step : RequestStep service view world next) :
    Provided service view requestId next := by
  cases step with
  | refuse request result disposal resolution pending reason =>
      exact ⟨provided.room, nofun⟩
  | spoil request parent pending addressed found invalid =>
      refine ⟨fun other present => ?_, fun other other_pending own takes => ?_⟩
      · by_cases own : requestId = request.parentRequestId
        · subst own
          change Function.update _ _ _ _ = _ at present
          rw [Function.update_self] at present
          injection present with present
          subst present
          exact provided.room parent found
        · change Function.update _ _ _ _ = _ at present
          rw [Function.update_of_ne own] at present
          exact provided.room other present
      · -- The pending datagram is the one that was not accepted.
        have same : some request = some other := pending.symm.trans other_pending
        injection same with same
        subst same
        have accepted := takes.2
        simp only [LoopWorker.setResponderInflight, Function.update_self] at accepted
        have rejected : validPayload request { parent with parentError := .remoteInvalidRequest }
            = false := invalid
        rw [rejected] at accepted
        cases accepted
  | handOver request parent consumed receiveQueue pending addressed found valid consumes =>
      obtain ⟨released, rfl⟩ := consumeReceive_eq consumes
      exact provided.handOver released receiveQueue sound pending addressed found valid
  | admitParent request target receive receiveQueue pending addressed absent valid resolved
      peeked =>
      exact provided.admitParent receive receiveQueue pending addressed absent valid resolved

theorem requestSteps (provided : Provided service view requestId world)
    (sound : Sound outstanding world) (steps : RequestSteps service view world next) :
    Provided service view requestId next := by
  induction steps with
  | refl => exact provided
  | tail steps step induction => exact induction.requestStep (sound.requestSteps steps) step

end Provided

namespace Roomy

theorem of_sameWork (roomy : Roomy requestId world) (same : SameWork world next) :
    Roomy requestId next := by
  refine ⟨fun other found => ?_, fun request other pending own found addressed valid => ?_⟩
  · obtain ⟨parent, found, cursor⟩ := same.backward requestId other found
    unfold ResponderInflight.HasRoom
    rw [cursor.payloadCount, cursor.nextPayloadIndex, cursor.parentTotalLength,
      cursor.nextPayloadOffset]
    exact roomy.room parent found
  · obtain ⟨parent, found, cursor⟩ := same.backward requestId other found
    exact roomy.pending request parent (same.pending.symm.trans pending) own found
      ((same.addressed request).mp addressed) ((cursor.valid request).symm.trans valid)

theorem answer (roomy : Roomy requestId world) (view : WorkerQpView) (answered : Nat)
    (parent : ResponderInflight) : Roomy requestId (world.answer view answered parent) := by
  have kept : ∀ {stored : ResponderInflight},
      (world.answer view answered parent).responder.responderInflight requestId = some stored →
        world.responder.responderInflight requestId = some stored := by
    intro stored present
    change Function.update _ _ _ _ = _ at present
    by_cases own : requestId = answered
    · rw [own, Function.update_self] at present
      cases present
    · rw [Function.update_of_ne own] at present
      exact present
  exact ⟨fun stored present => roomy.room stored (kept present),
    fun request stored pending own present => roomy.pending request stored pending own
      (kept present)⟩

theorem tryParentResponse (roomy : Roomy requestId world) (view : WorkerQpView)
    {outstanding : List BackendRequest} (sound : Sound outstanding world) :
    Roomy requestId (Worker.tryParentResponse view world).2 := by
  unfold Worker.tryParentResponse
  cases head : world.responder.responderOrder with
  | nil => exact roomy
  | cons answered order =>
      simp only
      cases found : world.responder.responderInflight answered with
      | none =>
          have member : answered ∈ world.responder.responderOrder := by
            rw [head]
            exact List.mem_cons_self
          exact absurd found ((sound.listed answered).mp member)
      | some parent =>
          simp only
          split
          · exact roomy
          · rcases answerParent_cases view answered parent world with same | answers
            · rw [same]
              exact roomy
            · rw [answers]
              exact roomy.answer view answered parent

/-- A call keeps the room, provided that a payload of the parent leaves some. -/
theorem call {services : QpService → Prop} {fits : QpService → WorkerQpView → World → Prop}
    {state next : ResponderState} (roomy : Roomy requestId state.world)
    (sound : Sound state.outstanding state.world)
    (reachable : ∀ service, services service → service.Reachable)
    (agrees : ∀ service view world, fits service view world → ∀ request,
      world.arriving = some request → world.Contradicts request →
        world.HandedOverUpTo request.parentRequestId)
    (leaves : ∀ service view offered, fits service view (state.world.offer offered) →
      ∀ request, (state.world.offer offered).arriving = some request →
        request.parentRequestId = requestId →
        (state.world.offer offered).TakesUp service view request → LeavesRoom request)
    (call : ResponderCall services fits state next) : Roomy requestId next.world := by
  cases call with
  | surroundings world moved => exact roomy.of_sameWork (.of_surroundings moved)
  | completions completed rest phase batch accepted =>
      exact roomy.of_sameWork (.tryBackendCompletions _ state.world)
  | response service view phase serves found => exact roomy.tryParentResponse view sound
  | flush accepted phase => exact roomy.of_sameWork (.tryFlushBackendRequests accepted state.world)
  | request service view offered phase serves found fitting =>
      have qpNum := QpService.workerQpView_qpNum (reachable service serves).valid found
      have offers := (SameWork.offer state.world offered).keeps sound rfl
      have steps := @tryRequest_steps (state.world.offer offered) service view qpNum
        fun _ _ present => sound.nonempty present
      have provided : Provided service view requestId (state.world.offer offered).loaded :=
        .loaded roomy.room (leaves service view offered fitting)
      exact (provided.requestSteps (offers.loaded (agrees service view _ fitting)) steps).roomy

end Roomy

end Ugdr.Worker
