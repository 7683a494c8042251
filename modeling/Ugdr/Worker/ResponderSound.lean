import Ugdr.Worker.ResponderInvariant

/-! # Calls keep the invariant of a responder

Every call of `progress_once` keeps the parents sound and their payloads tracked, provided that
a datagram which contradicts its parent is only met when the parents up to it were handed over.
-/

namespace Ugdr.Worker

open Ugdr.Queue Ugdr.Control
open Ugdr.Control.QpService (WorkerQpView)

variable {world next : World} {outstanding : List BackendRequest}

/-! ## Steps of a request -/

namespace Sound

variable (sound : Sound outstanding world)

include sound

theorem nonempty {requestId : Nat} {parent : ResponderInflight}
    (found : world.responder.responderInflight requestId = some parent) :
    parent.payloadCount ≠ 0 :=
  (sound.parents requestId parent found).1.nonempty

/-- A parent that keeps the receive queue peeked is the one of the pending datagram. -/
theorem holder_pending {requestId : Nat} {parent : ResponderInflight}
    (found : world.responder.responderInflight requestId = some parent) (holds : parent.Holds)
    {request : RequestDatagram} (pending : world.responder.pendingRequest = some request) :
    request.parentRequestId = requestId ∧ Addressed world request ∧
      validPayload request parent = true := by
  obtain ⟨-, other, other_pending, own, addressed, valid⟩ :=
    sound.held requestId parent found holds
  rw [pending] at other_pending
  injection other_pending with same
  exact ⟨same ▸ own, same ▸ addressed, same ▸ valid⟩

theorem unpeeked (unheld : ∀ requestId parent,
      world.responder.responderInflight requestId = some parent → ¬parent.Holds) :
    world.receiveQueue.peeked = 0 := by
  rcases sound.peeked with closed | ⟨requestId, parent, found, holds⟩
  · exact closed
  · exact absurd holds (unheld requestId parent found)

/-- While the parent of the pending datagram does not hold the receive queue, no parent does. -/
theorem unheld_of_pending {request : RequestDatagram}
    (pending : world.responder.pendingRequest = some request)
    (free : ∀ parent, world.responder.responderInflight request.parentRequestId = some parent →
      Addressed world request → validPayload request parent = true → ¬parent.Holds)
    {requestId : Nat} {parent : ResponderInflight}
    (found : world.responder.responderInflight requestId = some parent) : ¬parent.Holds := by
  intro holds
  obtain ⟨own, addressed, valid⟩ := sound.holder_pending found holds pending
  exact free parent (own ▸ found) addressed valid holds

theorem load {request : RequestDatagram} (rest : List RequestDatagram)
    (idle : world.responder.pendingRequest = none)
    (agrees : world.Contradicts request → world.HandedOverUpTo request.parentRequestId) :
    Sound outstanding
      { world with
        transport := { world.transport with requests := rest }
        responder := { world.responder with pendingRequest := some request } } := by
  have unheld : ∀ requestId parent,
      world.responder.responderInflight requestId = some parent → ¬parent.Holds := by
    intro requestId parent found holds
    obtain ⟨-, request, pending, -⟩ := sound.held requestId parent found holds
    rw [idle] at pending
    cases pending
  refine ⟨sound.order, sound.listed, sound.parents, ?_, .inl (sound.unpeeked unheld), ?_,
    { sound.queues with }⟩
  · intro requestId parent found holds
    exact absurd holds (unheld requestId parent found)
  · intro other pending contradicts
    injection pending with same
    subst same
    exact agrees contradicts

theorem loaded (agrees : ∀ request, world.arriving = some request →
      world.Contradicts request → world.HandedOverUpTo request.parentRequestId) :
    Sound outstanding world.loaded := by
  rcases world.loaded_cases with ⟨same, -⟩ | ⟨request, rest, idle, requests, loaded⟩
  · rw [same]
    exact sound
  · rw [loaded]
    apply sound.load rest idle
    apply agrees request
    simp [World.arriving, idle, requests]

theorem refuse {request : RequestDatagram} {result : DatagramResult} {disposal : Disposal}
    {resolution : List Event} (pending : world.responder.pendingRequest = some request)
    (reason : Rejects world request result disposal resolution) (events : List Event) :
    Sound outstanding (world.refuse request result events) := by
  have unheld : ∀ requestId parent,
      world.responder.responderInflight requestId = some parent → ¬parent.Holds := by
    intro requestId parent found
    refine sound.unheld_of_pending pending (fun own present addressed _ => ?_) found
    cases reason with
    | target misaddressed => exact absurd addressed misaddressed
    | first _ absent =>
        rw [absent] at present
        cases present
    | access _ _ _ _ absent =>
        rw [absent] at present
        cases present
  refine ⟨sound.order, sound.listed, sound.parents, ?_, .inl (sound.unpeeked unheld), nofun,
    { sound.queues with }⟩
  intro requestId parent found holds
  exact absurd holds (unheld requestId parent found)

theorem spoil {request : RequestDatagram} {parent : ResponderInflight} (events : List Event)
    (found : world.responder.responderInflight request.parentRequestId = some parent) :
    Sound outstanding
      { world with
        responder :=
          world.responder.setResponderInflight request.parentRequestId
            { parent with parentError := .remoteInvalidRequest }
        trace := events } := by
  have cursor : SameCursor parent { parent with parentError := .remoteInvalidRequest } :=
    ⟨rfl, rfl, rfl, rfl, rfl, rfl, fun _ => rfl⟩
  have same := SameWork.update found cursor
  have kept : Sound outstanding
      { world with
        responder :=
          world.responder.setResponderInflight request.parentRequestId
            { parent with parentError := .remoteInvalidRequest } } := by
    apply same.sound sound
    intro requestId other own
    by_cases spoiled : requestId = request.parentRequestId
    · subst spoiled
      change Function.update _ _ _ _ = _ at own
      rw [Function.update_self] at own
      injection own with own
      obtain ⟨whole, tracked⟩ := sound.parents _ parent found
      subst own
      exact ⟨{ whole with }, tracked⟩
    · change Function.update _ _ _ _ = _ at own
      rw [Function.update_of_ne spoiled] at own
      exact sound.parents requestId other own
  exact { kept with queues := { kept.queues with } }

theorem admitParent (service : QpService) (view : WorkerQpView) (target : Nat)
    {request : RequestDatagram} {receive : Option ReceiveWqeHeader}
    {receiveQueue : Fifo ReceiveWqeHeader}
    (pending : world.responder.pendingRequest = some request)
    (addressed : Addressed world request)
    (absent : world.responder.responderInflight request.parentRequestId = none)
    (valid : validFirst request = true) (length : request.parentTotalLength ≠ 0)
    (peeked : peekReceive request.opcode world.receiveQueue = .ok (receive, receiveQueue)) :
    Sound outstanding (world.admitParent service view request target receive receiveQueue) := by
  have unheld : ∀ requestId parent,
      world.responder.responderInflight requestId = some parent → ¬parent.Holds := by
    intro requestId parent found
    refine sound.unheld_of_pending pending (fun own present _ _ => ?_) found
    rw [absent] at present
    cases present
  have closed := sound.unpeeked unheld
  have valid_payload := validPayload_first valid target receive
  have outside : request.parentRequestId ∉ world.responder.responderOrder := by
    rw [sound.listed, absent]
    exact not_not.mpr rfl
  refine ⟨?_, fun requestId => ?_, fun requestId parent found => ?_,
    fun requestId parent found holds => ?_, ?_, fun other other_pending contradicts => ?_, ?_⟩
  · exact List.Nodup.append sound.order (List.nodup_singleton _)
      (List.disjoint_singleton.mpr outside)
  · change requestId ∈ world.responder.responderOrder ++ [request.parentRequestId] ↔
      Function.update _ _ _ _ ≠ _
    rw [List.mem_append, List.mem_singleton, sound.listed]
    by_cases own : requestId = request.parentRequestId
    · simp [own]
    · rw [Function.update_of_ne own]
      simp [own]
  · by_cases own : requestId = request.parentRequestId
    · subst own
      change Function.update _ _ _ _ = _ at found
      rw [Function.update_self] at found
      injection found with found
      subst found
      refine ⟨.fresh addressed.1 addressed.2 (validFirst_payloadCount valid length) target
        receive, fun index below => ?_⟩
      exact absurd below (Nat.not_lt_zero index)
    · change Function.update _ _ _ _ = _ at found
      rw [Function.update_of_ne own] at found
      exact sound.parents requestId parent found
  · by_cases own : requestId = request.parentRequestId
    · subst own
      change Function.update _ _ _ _ = _ at found
      rw [Function.update_self] at found
      injection found with found
      subst found
      refine ⟨?_, request, pending, rfl, addressed, valid_payload⟩
      rcases peekReceive_eq_ok peeked with ⟨-, rfl, -⟩ | ⟨-, -, -, -, -, -, rfl⟩
      · cases holds.1
      · rfl
    · change Function.update _ _ _ _ = _ at found
      rw [Function.update_of_ne own] at found
      exact absurd holds (unheld requestId parent found)
  · rcases peekReceive_eq_ok peeked with ⟨-, -, rfl⟩ | ⟨-, -, first, -, -, rfl, -⟩
    · exact .inl closed
    · exact .inr ⟨request.parentRequestId, _, Function.update_self _ _ _, rfl, rfl⟩
  · have same : some request = some other := pending.symm.trans other_pending
    injection same with same
    subst same
    obtain ⟨-, parent, found, invalid⟩ := contradicts
    change Function.update _ _ _ _ = _ at found
    rw [Function.update_self] at found
    injection found with found
    rw [← found, valid_payload] at invalid
    cases invalid
  · rcases peekReceive_eq_ok peeked with ⟨-, -, rfl⟩ | ⟨-, -, -, -, -, -, rfl⟩
    · exact { sound.queues with }
    · exact { sound.queues with }

/-- What is left of the receive queue and of the parent's claim to it. -/
theorem consumed {request : RequestDatagram} {parent consumed : ResponderInflight}
    {receiveQueue : Fifo ReceiveWqeHeader}
    (pending : world.responder.pendingRequest = some request)
    (found : world.responder.responderInflight request.parentRequestId = some parent)
    (consumes : consumeReceive parent world.receiveQueue = .ok (consumed, receiveQueue)) :
    receiveQueue.peeked = 0 ∧ receiveQueue.capacity = world.receiveQueue.capacity ∧
      receiveQueue.reserved = world.receiveQueue.reserved ∧ ¬consumed.Holds := by
  unfold consumeReceive at consumes
  split at consumes
  · rename_i holds
    rw [Fifo.release_of_peeked (sound.held _ parent found holds).1 (Nat.le_refl 1)] at consumes
    simp only [Except.ok.injEq, Prod.mk.injEq] at consumes
    obtain ⟨rfl, rfl⟩ := consumes
    exact ⟨rfl, rfl, rfl, fun held => nomatch held.2⟩
  · rename_i free
    simp only [Except.ok.injEq, Prod.mk.injEq] at consumes
    obtain ⟨rfl, rfl⟩ := consumes
    refine ⟨sound.unpeeked fun requestId other present => ?_, rfl, rfl, free⟩
    refine sound.unheld_of_pending pending (fun own own_found _ _ => ?_) present
    rw [found] at own_found
    injection own_found with same
    exact same ▸ free

theorem handOver {request : RequestDatagram} {parent consumed : ResponderInflight}
    {receiveQueue : Fifo ReceiveWqeHeader}
    (pending : world.responder.pendingRequest = some request)
    (found : world.responder.responderInflight request.parentRequestId = some parent)
    (valid : validPayload request parent = true)
    (consumes : consumeReceive parent world.receiveQueue = .ok (consumed, receiveQueue)) :
    Sound outstanding (world.handOver request parent consumed receiveQueue) := by
  obtain ⟨closed, capacity, reserved, free⟩ := sound.consumed pending found consumes
  obtain ⟨released, rfl⟩ := consumeReceive_eq consumes
  obtain ⟨whole, tracked⟩ := sound.parents _ parent found
  have unheld : ∀ requestId other,
      (world.handOver request parent { parent with receiveConsumed := released }
        receiveQueue).responder.responderInflight requestId = some other → ¬other.Holds := by
    intro requestId other present
    by_cases own : requestId = request.parentRequestId
    · subst own
      change Function.update _ _ _ _ = _ at present
      rw [Function.update_self] at present
      injection present with present
      exact present ▸ free
    · change Function.update _ _ _ _ = _ at present
      rw [Function.update_of_ne own] at present
      intro holds
      exact own (sound.holder_pending present holds pending).1.symm
  refine ⟨sound.order, fun requestId => ?_, fun requestId other present => ?_,
    fun requestId other present holds => absurd holds (unheld requestId other present),
    .inl closed, nofun, ?_⟩
  · change requestId ∈ world.responder.responderOrder ↔ Function.update _ _ _ _ ≠ _
    rw [sound.listed]
    by_cases own : requestId = request.parentRequestId
    · subst own
      simp [found]
    · rw [Function.update_of_ne own]
  · -- The new backend request is behind the others that wait.
    have before : ∀ {index : Nat}, (∃ backend ∈
        world.responder.pendingBackendRequests ++ outstanding,
        backend.parentRequestId = requestId ∧ backend.payloadIndex = index) →
        ∃ backend ∈ world.responder.pendingBackendRequests ++
          [backendRequestOf request parent.targetDaemonAddress] ++ outstanding,
        backend.parentRequestId = requestId ∧ backend.payloadIndex = index := by
      rintro index ⟨backend, member, own⟩
      refine ⟨backend, ?_, own⟩
      simp only [List.mem_append] at member ⊢
      tauto
    by_cases own : requestId = request.parentRequestId
    · subst own
      change Function.update _ _ _ _ = _ at present
      rw [Function.update_self] at present
      injection present with present
      subst present
      refine ⟨whole.advance released valid, fun index below => ?_⟩
      have last : request.payloadIndex = parent.nextPayloadIndex := (whole.valid_spec valid).1
      have below : index < parent.nextPayloadIndex + 1 := below
      by_cases new : index = parent.nextPayloadIndex
      · refine .inr ⟨backendRequestOf request parent.targetDaemonAddress, ?_, rfl, ?_⟩
        · exact List.mem_append_left _ (List.mem_append_right _ (List.mem_singleton_self _))
        · rw [new]
          exact last
      · exact (tracked index (by omega)).imp_right before
    · change Function.update _ _ _ _ = _ at present
      rw [Function.update_of_ne own] at present
      obtain ⟨other_whole, other_tracked⟩ := sound.parents requestId other present
      exact ⟨other_whole, fun index below => (other_tracked index below).imp_right before⟩
  · refine { sound.queues with receives := ?_, receivesReserved := ?_ }
    · exact capacity.trans_ne sound.queues.receives
    · exact reserved.trans sound.queues.receivesReserved

theorem requestStep {service : QpService} {view : WorkerQpView}
    (step : RequestStep service view world next) : Sound outstanding next := by
  cases step with
  | refuse request result disposal resolution pending reason =>
      exact sound.refuse pending reason _
  | spoil request parent pending addressed found invalid => exact sound.spoil _ found
  | handOver request parent consumed receiveQueue pending addressed found valid consumes =>
      exact sound.handOver pending found valid consumes
  | admitParent request target receive receiveQueue pending addressed absent valid resolved
      peeked =>
      exact sound.admitParent service view target pending addressed absent valid
        (resolveKey_length_ne_zero resolved) peeked

theorem requestSteps {service : QpService} {view : WorkerQpView}
    (steps : RequestSteps service view world next) : Sound outstanding next := by
  induction steps with
  | refl => exact sound
  | tail steps step induction => exact induction.requestStep step

theorem tryRequest {service : QpService} {view : WorkerQpView}
    (qpNum : view.qpNum = world.responder.qpNum)
    (agrees : ∀ request, world.arriving = some request →
      world.Contradicts request → world.HandedOverUpTo request.parentRequestId) :
    Sound outstanding (Worker.tryRequest service view world).2 :=
  (sound.loaded agrees).requestSteps
    (tryRequest_steps qpNum fun _ _ found => sound.nonempty found)

/-! ### The other calls -/

theorem answer (view : WorkerQpView) {requestId : Nat} {order : List Nat}
    {parent : ResponderInflight}
    (head : world.responder.responderOrder = requestId :: order)
    (found : world.responder.responderInflight requestId = some parent)
    (submitted : parent.nextPayloadIndex = parent.payloadCount) :
    Sound outstanding (world.answer view requestId parent) := by
  have distinct := sound.order
  rw [head, List.nodup_cons] at distinct
  obtain ⟨gone, distinct⟩ := distinct
  -- A parent that waits for nothing more does not hold the receive queue.
  have free : ¬parent.Holds := by
    intro holds
    obtain ⟨-, request, -, -, -, valid⟩ := sound.held requestId parent found holds
    obtain ⟨index, below, -⟩ := (sound.parents requestId parent found).1.valid_spec valid
    omega
  have kept : ∀ {other : Nat} {stored : ResponderInflight},
      (world.answer view requestId parent).responder.responderInflight other = some stored →
        other ≠ requestId ∧ world.responder.responderInflight other = some stored := by
    intro other stored present
    change Function.update _ _ _ _ = _ at present
    by_cases own : other = requestId
    · rw [own, Function.update_self] at present
      cases present
    · rw [Function.update_of_ne own] at present
      exact ⟨own, present⟩
  have tail : (world.answer view requestId parent).responder.responderOrder = order := by
    change world.responder.responderOrder.tail = order
    rw [head]
    rfl
  refine ⟨?_, fun other => ?_, fun other stored present => sound.parents other stored
    (kept present).2, fun other stored present holds => sound.held other stored
    (kept present).2 holds, ?_, fun request pending contradicts => ?_, { sound.queues with }⟩
  · rw [tail]
    exact distinct
  · rw [tail]
    have listed := sound.listed other
    rw [head, List.mem_cons] at listed
    change other ∈ order ↔ Function.update _ _ _ _ ≠ _
    by_cases own : other = requestId
    · subst own
      simp [gone]
    · rw [Function.update_of_ne own, ← listed]
      simp [own]
  · refine sound.peeked.imp_right ?_
    rintro ⟨other, stored, present, holds⟩
    have own : other ≠ requestId := by
      rintro rfl
      rw [found] at present
      injection present with same
      exact free (same ▸ holds)
    exact ⟨other, stored, (Function.update_of_ne own _ _).trans present, holds⟩
  · obtain ⟨addressed, stored, present, invalid⟩ := contradicts
    obtain ⟨own, present⟩ := kept present
    obtain ⟨handed, earlier⟩ := sound.agrees request pending ⟨addressed, stored, present, invalid⟩
    refine ⟨fun other other_present => handed other (kept other_present).2, ?_⟩
    rw [tail]
    intro other member stored present
    refine earlier other ?_ stored (kept present).2
    rw [head, List.takeWhile_cons_of_pos (by simpa using Ne.symm own)]
    exact List.mem_cons_of_mem _ member

theorem tryParentResponse (view : WorkerQpView) :
    Sound outstanding (Worker.tryParentResponse view world).2 := by
  unfold Worker.tryParentResponse
  cases head : world.responder.responderOrder with
  | nil => exact sound
  | cons requestId order =>
      simp only
      cases found : world.responder.responderInflight requestId with
      | none =>
          have member : requestId ∈ world.responder.responderOrder := by
            rw [head]
            exact List.mem_cons_self
          exact absurd found ((sound.listed requestId).mp member)
      | some parent =>
          simp only
          split
          · exact sound
          · rename_i complete
            rw [not_or, not_not, not_not] at complete
            rcases answerParent_cases view requestId parent world with same | answered
            · rw [same]
              exact sound
            · rw [answered]
              exact sound.answer view head found complete.1

theorem tryFlushBackendRequests (accepted : Nat) :
    Sound
      (if (Worker.tryFlushBackendRequests accepted world).1 then
        outstanding ++ world.responder.pendingBackendRequests.take accepted
      else outstanding)
      (Worker.tryFlushBackendRequests accepted world).2 := by
  have same := SameWork.tryFlushBackendRequests accepted world
  rcases tryFlushBackendRequests_cases accepted world with unchanged | ⟨trace, flushed⟩
  · rw [unchanged]
    exact sound
  · rw [flushed] at same ⊢
    refine same.sound sound fun requestId parent found => ?_
    obtain ⟨whole, tracked⟩ := sound.parents requestId parent found
    refine ⟨whole, fun index below => (tracked index below).imp_right ?_⟩
    rintro ⟨request, member, own⟩
    refine ⟨request, ?_, own⟩
    rw [← List.take_append_drop accepted world.responder.pendingBackendRequests] at member
    simp only [if_true, List.mem_append] at member ⊢
    tauto

theorem surroundings (moved : Surroundings world next) : Sound outstanding next :=
  (SameWork.of_surroundings moved).keeps sound moved.responder

theorem of_subset {others : List BackendRequest} (subset : outstanding ⊆ others) :
    Sound others world := by
  refine { sound with parents := fun requestId parent found => ?_ }
  obtain ⟨whole, tracked⟩ := sound.parents requestId parent found
  refine ⟨whole, fun index below => (tracked index below).imp_right ?_⟩
  rintro ⟨request, member, own⟩
  refine ⟨request, ?_, own⟩
  rcases List.mem_append.mp member with member | member
  · exact List.mem_append_left _ member
  · exact List.mem_append_right _ (subset member)

end Sound

/-! ### Completions -/

/-- Recording marks the payload of the completion and clears none. -/
theorem terminal_record {qpNum : Nat} {parent : ResponderInflight}
    (sound : ParentSound qpNum parent) (completion : BackendCompletion) {index : Nat}
    (marked : parent.terminal[index]? = some true ∨
      completion.payloadIndex = index ∧ index < parent.payloadCount) :
    (parent.record completion).terminal[index]? = some true := by
  unfold ResponderInflight.record
  split
  · rename_i refused
    rcases marked with marked | ⟨rfl, below⟩
    · exact marked
    · exact refused.resolve_left (by omega)
  · simp only
    rw [List.getElem?_set]
    split
    · rename_i same
      rcases marked with marked | ⟨-, below⟩
      · rw [if_pos (same ▸ (List.getElem?_eq_some_iff.mp marked).1)]
      · rw [if_pos (by rw [sound.terminalLength]; omega)]
    · rename_i other
      exact marked.resolve_right fun own => other own.1

namespace Sound

/-- The completion of an accepted request is recorded. -/
theorem recordCompletion {request : BackendRequest}
    (sound : Sound (request :: outstanding) world) (result : DatagramResult) :
    Sound outstanding (Worker.recordCompletion world (request.completion result)) := by
  -- What waits for other completions still does.
  have others : ∀ {requestId index : Nat},
      ¬(request.parentRequestId = requestId ∧ request.payloadIndex = index) →
      (∃ backend ∈ world.responder.pendingBackendRequests ++ request :: outstanding,
        backend.parentRequestId = requestId ∧ backend.payloadIndex = index) →
      ∃ backend ∈ world.responder.pendingBackendRequests ++ outstanding,
        backend.parentRequestId = requestId ∧ backend.payloadIndex = index := by
    rintro requestId index different ⟨backend, member, own⟩
    refine ⟨backend, ?_, own⟩
    rw [List.mem_append, List.mem_cons] at member
    rw [List.mem_append]
    rcases member with member | rfl | member
    · exact .inl member
    · exact absurd own different
    · exact .inr member
  unfold Worker.recordCompletion
  simp only
  split
  · rename_i absent
    have same : SameWork world
        { world with trace := world.trace ++ [.popped (request.completion result)] } :=
      .of_same_inflight rfl rfl rfl rfl rfl fun queues => { queues with }
    refine same.sound sound fun requestId parent found => ?_
    obtain ⟨whole, tracked⟩ := sound.parents requestId parent found
    refine ⟨whole, fun index below => (tracked index below).imp_right (others ?_)⟩
    rintro ⟨own, -⟩
    have absent : world.responder.responderInflight request.parentRequestId = none := absent
    rw [own] at absent
    rw [absent] at found
    cases found
  · rename_i parent found
    have found : world.responder.responderInflight request.parentRequestId = some parent := found
    have same : SameWork world
        { world with
          trace := world.trace ++ [.popped (request.completion result)]
          responder :=
            world.responder.setResponderInflight request.parentRequestId
              (parent.record (request.completion result)) } :=
      { SameWork.update found (sameCursor_record parent (request.completion result)) with
        queues := fun queues => { queues with } }
    refine same.sound sound fun requestId stored present => ?_
    by_cases own : requestId = request.parentRequestId
    · subst own
      change Function.update _ _ _ _ = _ at present
      rw [Function.update_self] at present
      injection present with present
      subst present
      obtain ⟨whole, tracked⟩ := sound.parents _ parent found
      refine ⟨whole.record _, fun index below => ?_⟩
      have cursor := sameCursor_record parent (request.completion result)
      rw [cursor.nextPayloadIndex] at below
      by_cases completed : request.payloadIndex = index
      · exact .inl (terminal_record whole _ (.inr ⟨completed, below.trans_le whole.index⟩))
      · rcases tracked index below with marked | waiting
        · exact .inl (terminal_record whole _ (.inl marked))
        · exact .inr (others (fun own => completed own.2) waiting)
    · change Function.update _ _ _ _ = _ at present
      rw [Function.update_of_ne own] at present
      obtain ⟨whole, tracked⟩ := sound.parents requestId stored present
      exact ⟨whole, fun index below => (tracked index below).imp_right
        (others fun same => own same.1.symm)⟩

theorem tryBackendCompletions {rest : List BackendRequest}
    (completed : List (BackendRequest × DatagramResult))
    (sound : Sound (completed.map Prod.fst ++ rest) world) :
    Sound rest (Worker.tryBackendCompletions
      (completed.map fun pair => pair.1.completion pair.2) world).2 := by
  change Sound rest (List.foldl _ _ _)
  induction completed generalizing world with
  | nil => exact sound
  | cons pair completed induction => exact induction (sound.recordCompletion pair.2)

theorem call {services : QpService → Prop} {fits : QpService → WorkerQpView → World → Prop}
    {state next : ResponderState} (sound : Sound state.outstanding state.world)
    (reachable : ∀ service, services service → service.Reachable)
    (agrees : ∀ service view world, fits service view world → ∀ request,
      world.arriving = some request → world.Contradicts request →
        world.HandedOverUpTo request.parentRequestId)
    (call : ResponderCall services fits state next) : Sound next.outstanding next.world := by
  cases call with
  | surroundings world moved => exact sound.surroundings moved
  | completions completed rest phase batch accepted =>
      exact tryBackendCompletions completed (sound.of_subset accepted.subset)
  | response service view phase serves found => exact sound.tryParentResponse view
  | flush accepted phase => exact sound.tryFlushBackendRequests accepted
  | request service view offered phase serves found fitting =>
      have qpNum := QpService.workerQpView_qpNum (reachable service serves).valid found
      exact ((SameWork.offer state.world offered).keeps sound rfl).tryRequest qpNum
        (agrees service view _ fitting)

theorem initial {configuration : World.Configuration}
    (responses : configuration.responseCapacity ≠ 0)
    (receives : configuration.receiveQueueCapacity ≠ 0)
    (entries : configuration.receiveCqCapacity ≠ 0) :
    Sound [] (World.initial configuration) := by
  refine ⟨List.nodup_nil, fun requestId => ?_, nofun, nofun, .inl rfl, nofun,
    ⟨responses, receives, rfl, entries, rfl, rfl⟩⟩
  exact iff_of_false List.not_mem_nil (not_not.mpr rfl)

end Sound

end Ugdr.Worker
