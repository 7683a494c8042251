import Ugdr.Control.RequestEffects
import Ugdr.Worker.ResponderHead

/-! # A responder gets on

From a sound state, calls of `progress_once` can settle what the backend and the requesters
already have, consume the pending datagram, and take one payload after the other of the parent
at the head of `responder_order_` until it is answered.
-/

namespace Ugdr.Worker

open Ugdr.Queue Ugdr.Control
open Ugdr.Control.QpService (WorkerQpView)

variable {world next : World} {outstanding : List BackendRequest}

/-! ## Single calls -/

/-- Nothing waits in the response transport or the receive completion queue, and a Receive WR
is posted. -/
structure Drained (world : World) : Prop where
  responses : world.transport.responses = []
  entries : world.receiveCq.items = []
  receives : world.receiveQueue.items ≠ []

namespace Drained

variable (drained : Drained world) (queues : QueuesSound world)

include drained queues

theorem tryPushResponse (response : ResponseDatagram) :
    world.transport.tryPushResponse response =
      some { world.transport with responses := world.transport.responses ++ [response] } := by
  have room : ¬world.transport.responseCapacity ≤ world.transport.responses.length := by
    rw [drained.responses]
    exact Nat.not_le_of_lt (Nat.pos_of_ne_zero queues.responses)
  rw [LocalTransport.tryPushResponse, if_neg room]

theorem rejectRequest (fresh : Bool) (request : RequestDatagram) (result : DatagramResult)
    (events : List Event) :
    Worker.rejectRequest fresh request result events world =
      (true, world.refuse request result events) := by
  unfold Worker.rejectRequest
  simp only [drained.tryPushResponse queues]
  rfl

theorem answerParent (view : WorkerQpView) (requestId : Nat) (parent : ResponderInflight) :
    Worker.answerParent view requestId parent world =
      (true, world.answer view requestId parent) := by
  have reserve : world.receiveCq.reserve = .ok { world.receiveCq with reserved := 1 } := by
    have room : ¬world.receiveCq.capacity ≤ world.receiveCq.items.length := by
      rw [drained.entries]
      exact Nat.not_le_of_lt (Nat.pos_of_ne_zero queues.entries)
    rw [Fifo.reserve, if_neg (not_not.mpr queues.entriesReserved), if_neg room]
  unfold Worker.answerParent World.answer
  simp only [drained.tryPushResponse queues, reserve]
  by_cases receives : parent.result = .success ∧ parent.hasReceive
  · simp only [if_pos receives]
    rw [Fifo.publish_of_reserved _ (by simp)]
    simp [retireParent, queues.entriesReserved]
  · simp [if_neg receives, retireParent]

omit queues in
theorem peekReceive (closed : world.receiveQueue.peeked = 0) (opcode : DatagramOpcode) :
    ∃ receive receiveQueue,
      Worker.peekReceive opcode world.receiveQueue = .ok (receive, receiveQueue) := by
  cases opcode with
  | rdmaWrite => exact ⟨none, world.receiveQueue, rfl⟩
  | rdmaWriteWithImmediate =>
      obtain ⟨first, rest, items⟩ := List.exists_cons_of_ne_nil drained.receives
      refine ⟨some first, { world.receiveQueue with peeked := 1 }, ?_⟩
      simp only [Worker.peekReceive, Fifo.peek, if_neg (not_not.mpr closed), items]

end Drained

/-- A parent releases what it holds of the receive queue. -/
theorem consumeReceive_of_peeked {parent : ResponderInflight} {queue : Fifo ReceiveWqeHeader}
    (peeked : parent.Holds → queue.peeked = 1) :
    ∃ consumed receiveQueue, consumeReceive parent queue = .ok (consumed, receiveQueue) := by
  unfold consumeReceive
  by_cases holds : parent.hasReceive = true ∧ parent.receiveConsumed = false
  · rw [if_pos holds, Fifo.release_of_peeked (peeked holds) (Nat.le_refl 1)]
    exact ⟨_, _, rfl⟩
  · rw [if_neg holds]
    exact ⟨_, _, rfl⟩

/-- A payload of a parent in flight is handed over when the buffer for the backend is empty. -/
theorem acceptPayload_accepts (fresh : Bool) {request : RequestDatagram}
    {parent : ResponderInflight} (nonempty : parent.payloadCount ≠ 0)
    (valid : validPayload request parent = true)
    (empty : world.responder.pendingBackendRequests = [])
    (peeked : parent.Holds → world.receiveQueue.peeked = 1) :
    ∃ consumed receiveQueue,
      consumeReceive parent world.receiveQueue = .ok (consumed, receiveQueue) ∧
        acceptPayload fresh request parent world =
          (true, world.handOver request parent consumed receiveQueue) := by
  obtain ⟨consumed, receiveQueue, consumes⟩ := consumeReceive_of_peeked peeked
  refine ⟨consumed, receiveQueue, consumes, ?_⟩
  have space : ¬world.responder.pendingBackendRequests.length = backendBatchCapacity := by
    rw [empty]
    exact nofun
  have accepted : ¬validPayload request parent = false := by
    rw [valid]
    exact nofun
  unfold acceptPayload
  simp only [if_neg accepted, if_neg nonempty, if_neg space, consumes]
  rfl

/-- A datagram is consumed unless it contradicts its parent. -/
theorem handleRequest_consumes (service : QpService) {view : WorkerQpView}
    (qpNum : world.responder.qpNum = view.qpNum) (sound : Sound outstanding world)
    (drained : Drained world) (empty : world.responder.pendingBackendRequests = [])
    (fresh : Bool) {request : RequestDatagram}
    (pending : world.responder.pendingRequest = some request)
    (agrees : ¬world.Contradicts request) :
    (handleRequest service view fresh request world).1 = true ∧
      (handleRequest service view fresh request world).2.responder.pendingRequest = none := by
  have queues := sound.queues
  unfold handleRequest
  by_cases misaddressed :
      request.targetQpNum ≠ view.qpNum ∨ 2 ^ 32 - 1 < request.parentTotalLength
  · rw [if_pos misaddressed, drained.rejectRequest queues]
    exact ⟨rfl, rfl⟩
  · rw [if_neg misaddressed]
    rw [not_or, not_not, Nat.not_lt] at misaddressed
    have addressed : Addressed world request :=
      ⟨misaddressed.1.trans qpNum.symm, misaddressed.2⟩
    cases found : world.responder.responderInflight request.parentRequestId with
    | some parent =>
        have valid : validPayload request parent = true := by
          rw [← Bool.not_eq_false]
          intro invalid
          exact agrees ⟨addressed, parent, found, invalid⟩
        obtain ⟨consumed, receiveQueue, -, accepts⟩ :=
          acceptPayload_accepts fresh (sound.nonempty found) valid empty
            fun holds => (sound.held _ parent found holds).1
        simp only [accepts]
        exact ⟨trivial, rfl⟩
    | none =>
        simp only
        unfold admitRequest
        by_cases invalid : validFirst request = false
        · rw [if_pos invalid, drained.rejectRequest queues]
          exact ⟨rfl, rfl⟩
        · rw [if_neg invalid]
          rw [Bool.not_eq_false] at invalid
          cases resolved : service.resolveRkey view.sessionId view.pdIdentity request.rkey
              request.remoteAddress request.parentTotalLength with
          | error status =>
              simp only [drained.rejectRequest queues]
              exact ⟨trivial, rfl⟩
          | ok target =>
              have closed : world.receiveQueue.peeked = 0 := by
                refine sound.unpeeked fun requestId parent present =>
                  sound.unheld_of_pending pending (fun own own_found _ _ => ?_) present
                rw [found] at own_found
                cases own_found
              obtain ⟨receive, receiveQueue, peeks⟩ :=
                drained.peekReceive closed request.opcode
              have holds : (responderInflightOf request target receive).Holds →
                  receiveQueue.peeked = 1 := by
                intro holds
                rcases peekReceive_eq_ok peeks with ⟨-, rfl, -⟩ | ⟨-, -, -, -, -, -, rfl⟩
                · cases holds.1
                · rfl
              have nonempty := validFirst_payloadCount invalid (resolveKey_length_ne_zero resolved)
              obtain ⟨consumed, released, -, accepts⟩ :=
                @acceptPayload_accepts
                  (world.admitParent service view request target receive receiveQueue) fresh
                  request (responderInflightOf request target receive) nonempty
                  (validPayload_first invalid target receive) empty holds
              simp only [peeks]
              exact ⟨congrArg Prod.fst accepts, congrArg (·.2.responder.pendingRequest) accepts⟩

/-- A request that was pending before the call is only dropped with success. -/
theorem handleRequest_pending {service : QpService} {view : WorkerQpView}
    {request : RequestDatagram}
    (moved : (handleRequest service view false request world).1 = true) :
    (handleRequest service view false request world).2.responder.pendingRequest = none := by
  have rejects : ∀ result events,
      (rejectRequest false request result events world).1 = true →
        (rejectRequest false request result events world).2.responder.pendingRequest = none := by
    intro result events moved
    unfold rejectRequest at moved ⊢
    dsimp only at moved ⊢
    split at moved
    · cases moved
    · rfl
  have accepts : ∀ parent (from_ : World),
      (acceptPayload false request parent from_).1 = true →
        (acceptPayload false request parent from_).2.responder.pendingRequest = none := by
    intro parent from_ moved
    unfold acceptPayload at moved ⊢
    split_ifs at moved ⊢
    · split at moved
      · cases moved
      · rfl
    · dsimp only at moved ⊢
      split at moved
      · cases moved
      · rfl
  unfold handleRequest at moved ⊢
  split_ifs at moved ⊢
  · exact rejects _ _ moved
  · split at moved
    · exact accepts _ _ moved
    · unfold admitRequest at moved ⊢
      split_ifs at moved ⊢
      · exact rejects _ _ moved
      · split at moved
        · exact rejects _ _ moved
        · split at moved
          · cases moved
          · exact accepts _ _ moved

/-! ## Continuations -/

/-- Nothing but the pending datagram is worked on. -/
structure Idle (_service : QpService) (_view : WorkerQpView) (world : World) : Prop where
  agrees : ∀ request, world.arriving = some request → world.Contradicts request →
    world.HandedOverUpTo request.parentRequestId
  quiet : world.arriving = world.responder.pendingRequest

/-- New datagrams contradict no parent and leave room. -/
structure Helps (_service : QpService) (_view : WorkerQpView) (world : World) : Prop where
  agrees : ∀ request, world.arriving = some request → world.Contradicts request →
    world.HandedOverUpTo request.parentRequestId
  room : world.responder.pendingRequest = none → ∀ request, world.arriving = some request →
    LeavesRoom request

theorem Idle.helps {service : QpService} {view : WorkerQpView} (idle : Idle service view world) :
    Helps service view world := by
  refine ⟨idle.agrees, fun none request arriving => ?_⟩
  rw [idle.quiet, none] at arriving
  cases arriving

/-- A call in one control state. -/
abbrev IdleCalls (service : QpService) : ResponderState → ResponderState → Prop :=
  ResponderCalls (· = service) Idle

/-- A state from which calls can be made in this control state. -/
structure Running (view : WorkerQpView) (state : ResponderState) : Prop where
  sound : Sound state.outstanding state.world
  qpNum : state.world.responder.qpNum = view.qpNum

/-- The parent at the head of `responder_order_` waits for something. -/
def HeadWaits (world : World) : Prop :=
  ∀ requestId order parent, world.responder.responderOrder = requestId :: order →
    world.responder.responderInflight requestId = some parent →
    parent.nextPayloadIndex ≠ parent.payloadCount ∨ parent.terminalCount ≠ parent.payloadCount

section Continuations

variable {service : QpService} {view : WorkerQpView} {state after : ResponderState}

theorem Running.call {fits : QpService → WorkerQpView → World → Prop}
    (running : Running view state) (reachable : service.Reachable)
    (agrees : ∀ service view world, fits service view world → ∀ request,
      world.arriving = some request → world.Contradicts request →
        world.HandedOverUpTo request.parentRequestId)
    (call : ResponderCall (· = service) fits state after) : Running view after := by
  have reaches : ∀ other, other = service → other.Reachable := fun other same => same ▸ reachable
  exact ⟨running.sound.call reaches agrees call,
    (call.qpNum running.sound reaches).trans running.qpNum⟩

theorem Running.idleCalls (running : Running view state) (reachable : service.Reachable)
    (calls : IdleCalls service state after) : Running view after := by
  induction calls with
  | refl => exact running
  | tail earlier last induction =>
      exact induction.call reachable (fun _ _ _ idle => idle.agrees) last

/-! ### Queues -/

theorem exists_takeResponses (service : QpService) (state : ResponderState) :
    ∃ world, IdleCalls service state { state with world } ∧
      world.responder = state.world.responder ∧ world.transport.responses = [] := by
  induction responses : state.world.transport.responses generalizing state with
  | nil => exact ⟨state.world, .refl, rfl, responses⟩
  | cons response rest induction =>
      have taken := Surroundings.takeResponse state.world response rest responses
      obtain ⟨world, calls, responder, empty⟩ := induction
        { state with
          world :=
            { state.world with
              transport := { state.world.transport with responses := rest } } } rfl
      exact ⟨world, .head (.surroundings state _ taken) calls, responder, empty⟩

theorem exists_pollReceiveCq (service : QpService) (state : ResponderState)
    (closed : state.world.receiveCq.peeked = 0) :
    ∃ world, IdleCalls service state { state with world } ∧
      world.responder = state.world.responder ∧
      world.transport = state.world.transport ∧ world.receiveCq.items = [] := by
  induction items : state.world.receiveCq.items generalizing state with
  | nil => exact ⟨state.world, .refl, rfl, rfl, items⟩
  | cons entry rest induction =>
      have polls : state.world.pollReceiveCq =
          { state.world with
            receiveCq := { state.world.receiveCq with items := rest }
            trace := state.world.trace ++ [.polledReceive entry] } := by
        unfold World.pollReceiveCq
        rw [Fifo.consume_of_cons closed items]
      have polled : ResponderCall (· = service) Idle state _ :=
        .surroundings state _ (.pollReceiveCq state.world)
      rw [polls] at polled
      obtain ⟨world, calls, responder, transport, empty⟩ := induction
        { state with
          world :=
            { state.world with
              receiveCq := { state.world.receiveCq with items := rest }
              trace := state.world.trace ++ [.polledReceive entry] } } closed rfl
      exact ⟨world, .head polled calls, responder, transport, empty⟩

theorem exists_postReceive (service : QpService) (state : ResponderState)
    (queues : QueuesSound state.world) :
    ∃ world, IdleCalls service state { state with world } ∧
      world.responder = state.world.responder ∧ world.transport = state.world.transport ∧
      world.receiveCq = state.world.receiveCq ∧ world.receiveQueue.items ≠ [] := by
  by_cases items : state.world.receiveQueue.items = []
  · have produce := Fifo.produce_of_lt queues.receivesReserved
      (items ▸ Nat.pos_of_ne_zero queues.receives) ({} : ReceiveWqeHeader)
    refine ⟨_, .single (.surroundings state _ (.postReceive state.world {})), ?_⟩
    unfold World.postReceive
    rw [produce]
    exact ⟨rfl, rfl, rfl, List.concat_ne_nil _ _⟩
  · exact ⟨state.world, .refl, rfl, rfl, rfl, items⟩

/-- Peers and clients can make room for the responder. -/
theorem Running.exists_drained (running : Running view state) (reachable : service.Reachable) :
    ∃ world, IdleCalls service state { state with world } ∧
      world.responder = state.world.responder ∧ Drained world := by
  obtain ⟨first, taken, same, responses⟩ := exists_takeResponses service state
  have sound := (running.idleCalls reachable taken).sound
  obtain ⟨second, polled, kept, transport, entries⟩ :=
    exists_pollReceiveCq service { state with world := first } sound.queues.entriesPeeked
  have sound := ((running.idleCalls reachable taken).idleCalls reachable polled).sound
  obtain ⟨third, posted, left, transported, receiveCq, receives⟩ :=
    exists_postReceive service { state with world := second } sound.queues
  refine ⟨third, (taken.trans polled).trans posted, left.trans (kept.trans same), ?_, ?_, receives⟩
  · exact (congrArg LocalTransport.responses (transported.trans transport)).trans responses
  · exact (congrArg Fifo.items receiveCq).trans entries

/-! ### Phases -/

theorem tryParentResponse_waits (view : WorkerQpView) (sound : Sound outstanding world)
    (waits : HeadWaits world) : tryParentResponse view world = (false, world) := by
  unfold tryParentResponse
  cases head : world.responder.responderOrder with
  | nil => rfl
  | cons requestId order =>
      have member : requestId ∈ world.responder.responderOrder := by
        rw [head]
        exact List.mem_cons_self
      obtain ⟨parent, found⟩ :=
        Option.ne_none_iff_exists'.mp ((sound.listed requestId).mp member)
      simp only [found]
      exact if_pos (waits requestId order parent head found)

theorem Drained.tryParentResponse (drained : Drained world) (queues : QueuesSound world)
    (view : WorkerQpView) {requestId : Nat} {order : List Nat} {parent : ResponderInflight}
    (head : world.responder.responderOrder = requestId :: order)
    (found : world.responder.responderInflight requestId = some parent)
    (submitted : parent.nextPayloadIndex = parent.payloadCount)
    (terminal : parent.terminalCount = parent.payloadCount) :
    Worker.tryParentResponse view world = (true, world.answer view requestId parent) := by
  unfold Worker.tryParentResponse
  simp only [head, found]
  rw [if_neg (by simp [submitted, terminal])]
  exact drained.answerParent queues view requestId parent

/-- Parents are answered until the one at the head waits. -/
theorem Running.exists_respond (running : Running view state) (reachable : service.Reachable)
    (found : service.workerQpView view.qpNum = .ok view)
    (phase : state.phase = .responses ∨ state.phase = .responsesAgain) :
    ∃ next, IdleCalls service state next ∧ next.phase = state.phase.next ∧
      next.outstanding = state.outstanding ∧
      next.world.responder.pendingBackendRequests =
        state.world.responder.pendingBackendRequests ∧
      HeadWaits next.world := by
  induction size : state.world.responder.responderOrder.length using Nat.strong_induction_on
    generalizing state with
  | _ count induction =>
      obtain ⟨world, drains, responder, drained⟩ := running.exists_drained reachable
      have ran := running.idleCalls reachable drains
      have call : ResponderCall (· = service) Idle { state with world } _ :=
        .response { state with world } service view phase rfl (by rw [ran.qpNum]; exact found)
      dsimp only at call
      by_cases waits : HeadWaits world
      · rw [tryParentResponse_waits view ran.sound waits] at call
        exact ⟨_, drains.tail call, rfl, rfl,
          congrArg LoopWorker.pendingBackendRequests responder, waits⟩
      · simp only [HeadWaits, not_forall, not_or, not_not] at waits
        obtain ⟨requestId, order, parent, head, present, submitted, terminal⟩ := waits
        rw [drained.tryParentResponse ran.sound.queues view head present submitted terminal] at call
        have answered := drains.tail call
        have shorter : (world.answer view requestId parent).responder.responderOrder.length <
            count := by
          rw [← size, ← responder]
          change world.responder.responderOrder.tail.length < _
          rw [head]
          exact Nat.lt_succ_self _
        obtain ⟨next, calls, after, outstanding, pending, waits⟩ :=
          induction _ shorter (running.idleCalls reachable answered) phase rfl
        refine ⟨next, answered.trans calls, after, outstanding, pending.trans ?_, waits⟩
        change world.responder.pendingBackendRequests = _
        rw [responder]

theorem recordCompletion_pending (world : World) (completion : BackendCompletion) :
    (recordCompletion world completion).responder.pendingBackendRequests =
      world.responder.pendingBackendRequests := by
  unfold recordCompletion
  dsimp only
  split <;> rfl

/-- The backend completes all that it accepted. -/
theorem exists_complete (service : QpService) (state : ResponderState)
    (phase : state.phase = .completions ∨ state.phase = .completionsAgain) :
    ∃ next, IdleCalls service state next ∧ next.phase = state.phase.next ∧
      next.outstanding = [] ∧
      next.world.responder.pendingBackendRequests =
        state.world.responder.pendingBackendRequests := by
  induction accepted : state.outstanding generalizing state with
  | nil =>
      have call : ResponderCall (· = service) Idle state _ :=
        .completions state [] [] phase (Nat.zero_le _) (accepted ▸ .refl _)
      exact ⟨_, .single call, rfl, rfl, rfl⟩
  | cons request rest induction =>
      have call : ResponderCall (· = service) Idle state _ :=
        .completions state [(request, .success)] rest phase (Nat.le_add_left 1 63)
          (accepted ▸ .refl _)
      obtain ⟨next, calls, after, empty, pending⟩ := induction
        { phase := state.phase
          world := (tryBackendCompletions [request.completion .success] state.world).2
          outstanding := rest } phase rfl
      exact ⟨next, .head call calls, after, empty,
        pending.trans (recordCompletion_pending state.world _)⟩

/-- The backend accepts all that waits for it. -/
theorem exists_flush (service : QpService) (state : ResponderState)
    (phase : state.phase = .flush ∨ state.phase = .flushAgain) :
    ∃ next, IdleCalls service state next ∧ next.phase = state.phase.next ∧
      next.world.responder.pendingBackendRequests = [] := by
  have empty : (tryFlushBackendRequests state.world.responder.pendingBackendRequests.length
      state.world).2.responder.pendingBackendRequests = [] := by
    unfold tryFlushBackendRequests
    dsimp only
    split
    · rename_i none
      exact List.length_eq_zero_iff.mp none
    · rename_i some
      rw [if_neg (not_or.mpr ⟨some, Nat.lt_irrefl _⟩)]
      exact List.drop_length
  have call : ResponderCall (· = service) Idle state _ :=
    .flush state state.world.responder.pendingBackendRequests.length phase
  refine ⟨_, .single call, ?_, empty⟩
  dsimp only
  rw [Phase.afterFlush, empty, if_neg (by simp)]

/-- Without new datagrams only the pending one is worked on. -/
theorem Running.idle (running : Running view state) (service : QpService)
    (other : WorkerQpView) : Idle service other (state.world.offer none) := by
  have arriving : (state.world.offer none).arriving = state.world.responder.pendingRequest := by
    unfold World.arriving
    cases pending : state.world.responder.pendingRequest <;> simp [World.offer, pending]
  have sound := (SameWork.offer state.world none).keeps running.sound rfl
  refine ⟨fun request arrives contradicts => ?_, arriving⟩
  exact sound.agrees request (arriving.symm.trans arrives) contradicts

theorem tryRequest_none (service : QpService) (view : WorkerQpView)
    (none : world.responder.pendingRequest = none) :
    tryRequest service view (world.offer .none) = (false, world.offer .none) := by
  unfold tryRequest
  have idle : (world.offer .none).responder.pendingRequest = .none := none
  rw [idle]
  rfl

theorem tryRequest_pending {service : QpService} {view : WorkerQpView}
    (moved : (tryRequest service view (world.offer none)).1 = true) :
    (tryRequest service view (world.offer none)).2.responder.pendingRequest = none := by
  cases pending : world.responder.pendingRequest with
  | none =>
      rw [tryRequest_none service view pending]
      exact pending
  | some request =>
      have same : (world.offer none).responder.pendingRequest = some request := pending
      unfold tryRequest at moved ⊢
      rw [same] at moved ⊢
      exact handleRequest_pending moved

/-- The requests end when there are no new datagrams. -/
theorem Running.exists_requests (running : Running view state) (reachable : service.Reachable)
    (found : service.workerQpView view.qpNum = .ok view) (phase : state.phase = .requests) :
    ∃ next, IdleCalls service state next ∧ next.phase = .flushAgain := by
  have call : ResponderCall (· = service) Idle state _ :=
    .request state service view none phase rfl (by rw [running.qpNum]; exact found)
      (running.idle service view)
  cases moved : (tryRequest service view (state.world.offer none)).1 with
  | false =>
      rw [moved] at call
      exact ⟨_, .single call, rfl⟩
  | true =>
      have none := tryRequest_pending moved
      rw [moved] at call
      have ran := running.idleCalls reachable (.single call)
      have again : ResponderCall (· = service) Idle _ _ :=
        .request _ service view .none rfl rfl (by rw [ran.qpNum]; exact found)
          (ran.idle service view)
      dsimp only at again
      rw [tryRequest_none service view none] at again
      exact ⟨_, .tail (.single call) again, rfl⟩

/-! ### Settling -/

/-- The backend has nothing left to do, and the parent at the head waits for datagrams. -/
structure Settled (state : ResponderState) : Prop where
  phase : state.phase = .completions
  outstanding : state.outstanding = []
  pendingBackend : state.world.responder.pendingBackendRequests = []
  waits : HeadWaits state.world

section Running

variable (reachable : service.Reachable) (found : service.workerQpView view.qpNum = .ok view)

include reachable found

theorem Running.exists_flushAgain (running : Running view state) :
    ∃ next, IdleCalls service state next ∧ next.phase = .flushAgain := by
  have requests : ∀ {state}, Running view state → state.phase = .requests →
      ∃ next, IdleCalls service state next ∧ next.phase = .flushAgain :=
    fun running phase => running.exists_requests reachable found phase
  have flush : ∀ {state}, Running view state → state.phase = .flush →
      ∃ next, IdleCalls service state next ∧ next.phase = .flushAgain := by
    intro state running phase
    obtain ⟨middle, calls, after, -⟩ := exists_flush service state (.inl phase)
    rw [phase] at after
    obtain ⟨next, more, last⟩ := requests (running.idleCalls reachable calls) after
    exact ⟨next, calls.trans more, last⟩
  have responses : ∀ {state}, Running view state → state.phase = .responses →
      ∃ next, IdleCalls service state next ∧ next.phase = .flushAgain := by
    intro state running phase
    obtain ⟨middle, calls, after, -⟩ := running.exists_respond reachable found (.inl phase)
    rw [phase] at after
    obtain ⟨next, more, last⟩ := flush (running.idleCalls reachable calls) after
    exact ⟨next, calls.trans more, last⟩
  have completions : ∀ {state}, Running view state → state.phase = .completions →
      ∃ next, IdleCalls service state next ∧ next.phase = .flushAgain := by
    intro state running phase
    obtain ⟨middle, calls, after, -⟩ := exists_complete service state (.inl phase)
    rw [phase] at after
    obtain ⟨next, more, last⟩ := responses (running.idleCalls reachable calls) after
    exact ⟨next, calls.trans more, last⟩
  have responsesAgain : ∀ {state}, Running view state → state.phase = .responsesAgain →
      ∃ next, IdleCalls service state next ∧ next.phase = .flushAgain := by
    intro state running phase
    obtain ⟨middle, calls, after, -⟩ := running.exists_respond reachable found (.inr phase)
    rw [phase] at after
    obtain ⟨next, more, last⟩ := completions (running.idleCalls reachable calls) after
    exact ⟨next, calls.trans more, last⟩
  cases phase : state.phase with
  | completions => exact completions running phase
  | responses => exact responses running phase
  | flush => exact flush running phase
  | requests => exact requests running phase
  | flushAgain => exact ⟨state, .refl, phase⟩
  | completionsAgain =>
      obtain ⟨middle, calls, after, -⟩ := exists_complete service state (.inr phase)
      rw [phase] at after
      obtain ⟨next, more, last⟩ := responsesAgain (running.idleCalls reachable calls) after
      exact ⟨next, calls.trans more, last⟩
  | responsesAgain => exact responsesAgain running phase

theorem Running.exists_settled (running : Running view state) :
    ∃ next, IdleCalls service state next ∧ Settled next := by
  obtain ⟨first, toFlush, phase⟩ := running.exists_flushAgain reachable found
  obtain ⟨second, flushes, flushed, empty⟩ := exists_flush service first (.inr phase)
  rw [phase] at flushed
  obtain ⟨third, completes, completed, outstanding, kept⟩ :=
    exists_complete service second (.inr flushed)
  rw [flushed] at completed
  have calls := (toFlush.trans flushes).trans completes
  obtain ⟨last, responds, responded, left, pending, waits⟩ :=
    (running.idleCalls reachable calls).exists_respond reachable found (.inr completed)
  rw [completed] at responded
  exact ⟨last, calls.trans responds, responded, left.trans outstanding,
    pending.trans (kept.trans empty), waits⟩

end Running

end Continuations

end Ugdr.Worker
