import Ugdr.Worker.CopyBeforeSuccess
import Ugdr.Worker.ResponderLiveness

/-! # No datagram wedges the responder

As long as no datagram contradicts a parent that still waits for payloads, and every payload
leaves room for the later ones, the responder can always consume its pending datagram and
answer the parent at the head of `responder_order_`. A datagram that contradicts such a parent
stays pending forever.
-/

namespace Ugdr.Worker

open Ugdr.Queue Ugdr.Control
open Ugdr.Control.QpService (WorkerQpView)

section Liveness

variable {service : QpService} {view : WorkerQpView} {state after : ResponderState}
  {requestId : Nat}

/-! ## The pending datagram -/

namespace Settled

variable (settled : Settled state)

include settled

/-- The parent at the head waits for a datagram. -/
theorem head_unsubmitted (sound : Sound state.outstanding state.world) {order : List Nat}
    {parent : ResponderInflight}
    (head : state.world.responder.responderOrder = requestId :: order)
    (found : state.world.responder.responderInflight requestId = some parent) :
    parent.nextPayloadIndex ≠ parent.payloadCount := by
  intro submitted
  obtain ⟨whole, tracked⟩ := sound.parents requestId parent found
  rcases settled.waits requestId order parent head found with waits | waits
  · exact waits submitted
  · apply waits
    rw [whole.terminalCount, ← whole.terminalLength, List.count_eq_length]
    intro marked member
    obtain ⟨index, below, rfl⟩ := List.getElem_of_mem member
    rw [whole.terminalLength, ← submitted] at below
    rcases tracked index below with marked | ⟨request, waiting, -⟩
    · exact ((List.getElem?_eq_some_iff.mp marked).2).symm
    · rw [settled.pendingBackend, settled.outstanding] at waiting
      cases waiting

/-- So the pending datagram contradicts no parent. -/
theorem agrees (sound : Sound state.outstanding state.world) {request : RequestDatagram}
    (pending : state.world.responder.pendingRequest = some request) :
    ¬state.world.Contradicts request := by
  intro contradicts
  obtain ⟨handed, earlier⟩ := sound.agrees request pending contradicts
  obtain ⟨-, parent, found, -⟩ := contradicts
  have member : request.parentRequestId ∈ state.world.responder.responderOrder := by
    rw [sound.listed, found]
    exact Option.some_ne_none _
  cases head : state.world.responder.responderOrder with
  | nil =>
      rw [head] at member
      cases member
  | cons first order =>
      have listed : first ∈ state.world.responder.responderOrder := by
        rw [head]
        exact List.mem_cons_self
      obtain ⟨other, present⟩ := Option.ne_none_iff_exists'.mp ((sound.listed first).mp listed)
      apply settled.head_unsubmitted sound head present
      by_cases own : first = request.parentRequestId
      · exact handed other (own ▸ present)
      · apply earlier first _ other present
        rw [head, List.takeWhile_cons_of_pos (by simpa using own)]
        exact List.mem_cons_self

/-- The loops before the requests have nothing to do. -/
theorem toRequests {services : QpService → Prop}
    {fits : QpService → WorkerQpView → World → Prop} (running : Running view state)
    (serves : services service) (found : service.workerQpView view.qpNum = .ok view) :
    ResponderCalls services fits state { state with phase := .requests } := by
  obtain ⟨phase, world, outstanding⟩ := state
  obtain ⟨rfl, rfl, empty, waits⟩ := settled
  have completions : ResponderCall services fits ⟨.completions, world, []⟩
      ⟨.responses, world, []⟩ :=
    .completions ⟨.completions, world, []⟩ [] [] (.inl rfl) (Nat.zero_le _) (.refl _)
  have responses : ResponderCall services fits ⟨.responses, world, []⟩ _ :=
    .response ⟨.responses, world, []⟩ service view (.inl rfl) serves
      (by rw [running.qpNum]; exact found)
  dsimp only at responses
  rw [tryParentResponse_waits view running.sound waits] at responses
  have flush : ResponderCall services fits ⟨.flush, world, []⟩ _ :=
    .flush ⟨.flush, world, []⟩ 0 (.inl rfl)
  have unchanged : tryFlushBackendRequests 0 world = (false, world) := by
    unfold tryFlushBackendRequests
    rw [empty]
    rfl
  have passed : Phase.afterFlush .flush world = .requests := by
    rw [Phase.afterFlush, empty]
    rfl
  dsimp only at flush
  rw [unchanged] at flush
  dsimp only at flush
  rw [passed] at flush
  exact ((Relation.ReflTransGen.single completions).tail responses).tail flush

end Settled

section Continuations

variable (reachable : service.Reachable) (found : service.workerQpView view.qpNum = .ok view)

include reachable found

theorem Settled.exists_consumed (settled : Settled state) (running : Running view state)
    {request : RequestDatagram} (pending : state.world.responder.pendingRequest = some request) :
    ∃ next, IdleCalls service state next ∧ next.world.responder.pendingRequest = none := by
  have passes : IdleCalls service state _ := settled.toRequests running rfl found
  obtain ⟨world, drains, responder, drained⟩ :=
    (running.idleCalls reachable passes).exists_drained reachable
  have calls := passes.trans drains
  have ran := running.idleCalls reachable calls
  have call : ResponderCall (· = service) Idle { phase := .requests, world, outstanding := _ } _ :=
    .request { phase := .requests, world, outstanding := state.outstanding } service view none rfl
      rfl (by rw [ran.qpNum]; exact found) (ran.idle service view)
  refine ⟨_, calls.tail call, ?_⟩
  have sound := (SameWork.offer world none).keeps ran.sound rfl
  have waiting : (world.offer none).responder.pendingRequest = some request := by
    change world.responder.pendingRequest = some request
    rw [responder]
    exact pending
  have agrees : ¬(world.offer none).Contradicts request := by
    rintro ⟨⟨target, length⟩, parent, present, invalid⟩
    apply settled.agrees running.sound pending
    refine ⟨⟨?_, length⟩, parent, ?_, invalid⟩
    · rw [← responder]
      exact target
    · rw [← responder]
      exact present
  have qpNum : (world.offer none).responder.qpNum = view.qpNum := ran.qpNum
  have empty : (world.offer none).responder.pendingBackendRequests = [] := by
    change world.responder.pendingBackendRequests = []
    rw [responder]
    exact settled.pendingBackend
  have room : Drained (world.offer none) := ⟨drained.responses, drained.entries, drained.receives⟩
  have consumes := handleRequest_consumes service qpNum sound room empty false waiting agrees
  dsimp only
  unfold tryRequest
  rw [waiting]
  exact consumes.2

omit reachable found in
/-- Without new datagrams nothing becomes pending. -/
theorem pending_none_of_idle (calls : IdleCalls service state after)
    (none : state.world.responder.pendingRequest = none) :
    after.world.responder.pendingRequest = .none := by
  induction calls with
  | refl => exact none
  | tail earlier last induction =>
      cases last with
      | surroundings world moved =>
          exact (congrArg LoopWorker.pendingRequest moved.responder).trans induction
      | completions completed rest phase batch accepted =>
          exact (SameWork.tryBackendCompletions _ _).pending.trans induction
      | response service view phase serves found =>
          exact (tryParentResponse_keeps view _).2.trans induction
      | flush accepted phase =>
          exact (SameWork.tryFlushBackendRequests accepted _).pending.trans induction
      | request service view offered phase serves found idle =>
          have nothing : offered = .none := by
            have quiet := idle.quiet
            unfold World.arriving at quiet
            simp only [World.offer, induction] at quiet
            cases offered with
            | none => rfl
            | some request => cases quiet
          subst nothing
          dsimp only
          rw [tryRequest_none service view induction]
          exact induction

/-- What is pending can be consumed, and what the backend has can be settled. -/
theorem Running.exists_armed (running : Running view state) :
    ∃ next, IdleCalls service state next ∧ Settled next ∧
      next.world.responder.pendingRequest = none := by
  obtain ⟨first, calls, settled⟩ := running.exists_settled reachable found
  have ran := running.idleCalls reachable calls
  cases pending : first.world.responder.pendingRequest with
  | none => exact ⟨first, calls, settled, pending⟩
  | some request =>
      obtain ⟨second, consumes, consumed⟩ := settled.exists_consumed reachable found ran pending
      obtain ⟨last, settles, settled⟩ :=
        (ran.idleCalls reachable consumes).exists_settled reachable found
      exact ⟨last, (calls.trans consumes).trans settles, settled,
        pending_none_of_idle settles consumed⟩

end Continuations

/-! ## The parent at the head -/

/-- The parent is at the head of `responder_order_` and has room for its payloads. -/
structure AtHead (view : WorkerQpView) (requestId : Nat) (state : ResponderState) : Prop where
  running : Running view state
  head : state.world.responder.responderOrder.head? = some requestId
  roomy : Roomy requestId state.world

/-- Some calls end with one that answers the parent. -/
def Retirable (service : QpService) (requestId : Nat) (state : ResponderState) : Prop :=
  ∃ before next, ResponderCalls (· = service) anyDatagram state before ∧
    ResponderCall (· = service) anyDatagram before next ∧ Retires requestId before next

theorem Retirable.of_calls {fits : QpService → WorkerQpView → World → Prop}
    (calls : ResponderCalls (· = service) fits state after)
    (retirable : Retirable service requestId after) : Retirable service requestId state := by
  obtain ⟨before, next, earlier, last, retires⟩ := retirable
  exact ⟨before, next, (calls.mono fun _ => trivial).trans earlier, last, retires⟩

namespace AtHead

variable (atHead : AtHead view requestId state)

include atHead

theorem exists_parent : ∃ order parent,
    state.world.responder.responderOrder = requestId :: order ∧
      state.world.responder.responderInflight requestId = some parent := by
  cases order : state.world.responder.responderOrder with
  | nil =>
      have head := atHead.head
      rw [order] at head
      cases head
  | cons first rest =>
      have head := atHead.head
      rw [order] at head
      injection head with same
      subst same
      have listed : first ∈ state.world.responder.responderOrder := by
        rw [order]
        exact List.mem_cons_self
      obtain ⟨parent, found⟩ :=
        Option.ne_none_iff_exists'.mp ((atHead.running.sound.listed first).mp listed)
      exact ⟨rest, parent, rfl, found⟩

theorem call (reachable : service.Reachable)
    (call : ResponderCall (· = service) Helps state after) :
    AtHead view requestId after ∧ Later requestId state.world after.world ∨
      Retires requestId state after := by
  have reaches : ∀ other, other = service → other.Reachable := fun other same => same ▸ reachable
  have sound := atHead.running.sound
  refine (call.later_or_retires sound reaches requestId).imp_left fun later => ?_
  refine ⟨⟨atHead.running.call reachable (fun _ _ _ helps => helps.agrees) call,
    later.head atHead.head, ?_⟩, later⟩
  apply atHead.roomy.call sound reaches (fun _ _ _ helps => helps.agrees) ?_ call
  intro other view offered helps request arriving own takes
  cases pending : state.world.responder.pendingRequest with
  | none => exact helps.room pending request arriving
  | some waiting =>
      have same : waiting = request := by
        unfold World.arriving at arriving
        simp only [World.offer, pending] at arriving
        exact Option.some.inj arriving
      subst same
      obtain ⟨-, parent, -, found⟩ := atHead.exists_parent
      obtain ⟨addressed, accepted⟩ := takes
      have present : (state.world.offer offered).responder.responderInflight
          waiting.parentRequestId = some parent := by
        rw [own]
        exact found
      rw [present] at accepted
      exact atHead.roomy.pending waiting parent pending own found addressed accepted

/-- Along calls that help, the parent is answered or stays. -/
theorem calls (reachable : service.Reachable)
    (calls : ResponderCalls (· = service) Helps state after) :
    AtHead view requestId after ∧ Later requestId state.world after.world ∨
      Retirable service requestId state := by
  induction calls with
  | refl => exact .inl ⟨atHead, .refl requestId _⟩
  | tail earlier last induction =>
      rcases induction with ⟨still, later⟩ | done
      · rcases still.call reachable last with ⟨stays, more⟩ | retires
        · exact .inl ⟨stays, later.trans more⟩
        · exact .inr ⟨_, _, ResponderCalls.mono (fun _ => trivial) earlier,
            last.mono fun _ => trivial, retires⟩
      · exact .inr done

end AtHead

/-! ### The next payload -/

/-- A payload that leaves one byte for each later one. -/
def ResponderInflight.nextDatagram (requestId : Nat) (parent : ResponderInflight) :
    RequestDatagram :=
  { parentRequestId := requestId
    sourceQpNum := parent.sourceQpNum
    targetQpNum := parent.targetQpNum
    opcode := parent.opcode
    remoteAddress := parent.remoteAddress
    rkey := parent.rkey
    immediateData := parent.immediateData
    parentTotalLength := parent.parentTotalLength
    payloadCount := parent.payloadCount
    payloadIndex := parent.nextPayloadIndex
    payloadOffset := parent.nextPayloadOffset
    payloadLength :=
      parent.parentTotalLength - parent.nextPayloadOffset -
        (parent.payloadCount - (parent.nextPayloadIndex + 1)) }

section NextDatagram

variable {parent : ResponderInflight} {qpNum : Nat} (sound : ParentSound qpNum parent)
  (room : parent.HasRoom) (unsubmitted : parent.nextPayloadIndex ≠ parent.payloadCount)

include sound room unsubmitted

theorem validPayload_nextDatagram (requestId : Nat) :
    validPayload (parent.nextDatagram requestId) parent = true := by
  have index := sound.index
  have offset := sound.offset
  unfold ResponderInflight.HasRoom at room
  simp only [validPayload, ResponderInflight.nextDatagram, decide_eq_true_eq, true_and]
  exact .inr ⟨sound.nonempty, by omega, by omega, offset, by omega⟩

theorem leavesRoom_nextDatagram (requestId : Nat) : LeavesRoom (parent.nextDatagram requestId) := by
  have index := sound.index
  unfold ResponderInflight.HasRoom at room
  unfold LeavesRoom ResponderInflight.nextDatagram
  dsimp only
  omega

end NextDatagram

/-- The requester sends the next payload of the parent at the head. -/
theorem AtHead.exists_next (atHead : AtHead view requestId state)
    (found : service.workerQpView view.qpNum = .ok view) (settled : Settled state)
    (none : state.world.responder.pendingRequest = none) {parent : ResponderInflight}
    (present : state.world.responder.responderInflight requestId = some parent)
    (unsubmitted : parent.nextPayloadIndex ≠ parent.payloadCount) :
    ∃ next, ResponderCalls (· = service) Helps state next ∧ ∃ other,
      next.world.responder.responderInflight requestId = some other ∧
        other.payloadCount = parent.payloadCount ∧
        other.nextPayloadIndex = parent.nextPayloadIndex + 1 := by
  have sound := atHead.running.sound
  have qpNum := atHead.running.qpNum
  obtain ⟨whole, -⟩ := sound.parents requestId parent present
  have room := atHead.roomy.room parent present
  have valid := validPayload_nextDatagram whole room unsubmitted requestId
  have arriving : (state.world.offer (some (parent.nextDatagram requestId))).arriving =
      some (parent.nextDatagram requestId) := by
    simp [World.arriving, World.offer, none]
  have helps : Helps service view (state.world.offer (some (parent.nextDatagram requestId))) := by
    refine ⟨fun request arrives contradicts => ?_, fun _ request arrives => ?_⟩
    · obtain rfl := Option.some.inj (arriving.symm.trans arrives)
      obtain ⟨-, other, own, invalid⟩ := contradicts
      obtain rfl := Option.some.inj (present.symm.trans own)
      rw [valid] at invalid
      cases invalid
    · obtain rfl := Option.some.inj (arriving.symm.trans arrives)
      exact leavesRoom_nextDatagram whole room unsubmitted requestId
  have call : ResponderCall (· = service) Helps { state with phase := .requests } _ :=
    .request { state with phase := .requests } service view (some (parent.nextDatagram requestId))
      rfl rfl (by rw [qpNum]; exact found) helps
  have passes : ResponderCalls (· = service) Helps state _ :=
    settled.toRequests atHead.running rfl found
  refine ⟨_, passes.tail call, ?_⟩
  obtain ⟨fresh, handles⟩ :=
    tryRequest_eq service view (state.world.offer (some (parent.nextDatagram requestId)))
  rw [arriving] at handles
  have loaded : (state.world.offer (some (parent.nextDatagram requestId))).loaded =
      { state.world with
        transport := { state.world.transport with requests := [] }
        responder :=
          { state.world.responder with
            pendingRequest := some (parent.nextDatagram requestId) } } := by
    unfold World.loaded
    have idle : (state.world.offer (some (parent.nextDatagram requestId))).responder.pendingRequest
        = .none := none
    rw [idle]
    rfl
  rw [loaded] at handles
  -- Nobody holds the receive queue, since nothing was pending.
  have free : parent.Holds → state.world.receiveQueue.peeked = 1 :=
    fun holds => (sound.held requestId parent present holds).1
  obtain ⟨consumed, receiveQueue, consumes, accepts⟩ :=
    @acceptPayload_accepts
      { state.world with
        transport := { state.world.transport with requests := [] }
        responder :=
          { state.world.responder with
            pendingRequest := some (parent.nextDatagram requestId) } }
      fresh (parent.nextDatagram requestId) parent whole.nonempty valid settled.pendingBackend free
  have addressed : ¬((parent.nextDatagram requestId).targetQpNum ≠ view.qpNum ∨
      2 ^ 32 - 1 < (parent.nextDatagram requestId).parentTotalLength) := by
    rw [not_or, not_not, Nat.not_lt]
    exact ⟨whole.targetQpNum.trans qpNum, whole.length⟩
  simp only [handleRequest, if_neg addressed] at handles
  have own : (parent.nextDatagram requestId).parentRequestId = requestId := rfl
  simp only [own, present, accepts] at handles
  dsimp only
  rw [handles]
  obtain ⟨released, rfl⟩ := consumeReceive_eq consumes
  exact ⟨_, Function.update_self _ _ _, rfl, rfl⟩

/-- The payloads that are left can be sent one by one, and then the parent is answered. -/
theorem AtHead.retirable (atHead : AtHead view requestId state) (reachable : service.Reachable)
    (found : service.workerQpView view.qpNum = .ok view) {parent : ResponderInflight}
    (present : state.world.responder.responderInflight requestId = some parent) :
    Retirable service requestId state := by
  induction left : parent.payloadCount - parent.nextPayloadIndex using Nat.strong_induction_on
    generalizing state parent with
  | _ left induction =>
      obtain ⟨armed, arms, settled, none⟩ := atHead.running.exists_armed reachable found
      have helps := arms.mono Idle.helps
      rcases atHead.calls reachable helps with ⟨still, later⟩ | done
      · obtain ⟨other, stays, count, index⟩ := later.inflight parent present
        obtain ⟨order, _, head, same⟩ := still.exists_parent
        have unsubmitted := settled.head_unsubmitted still.running.sound head stays
        have bound := (still.running.sound.parents requestId other stays).1.index
        obtain ⟨next, sends, advanced, has, counts, moved⟩ :=
          still.exists_next found settled none stays unsubmitted
        rcases still.calls reachable sends with ⟨serves, -⟩ | done
        · exact .of_calls (helps.trans sends)
            (induction _ (by omega) serves has rfl)
        · exact .of_calls helps done
      · exact done

/-! ## Every run -/

theorem roomy_of_calls {configuration : World.Configuration}
    (responses : configuration.responseCapacity ≠ 0)
    (receives : configuration.receiveQueueCapacity ≠ 0)
    (entries : configuration.receiveCqCapacity ≠ 0)
    (calls : ResponderCalls QpService.Reachable Fits (ResponderState.initial configuration) state) :
    Sound state.outstanding state.world ∧ ∀ requestId, Roomy requestId state.world := by
  induction calls with
  | refl => exact ⟨.initial responses receives entries, fun requestId => ⟨nofun, nofun⟩⟩
  | tail earlier last induction =>
      obtain ⟨sound, roomy⟩ := induction
      have agrees : ∀ service view world, Fits service view world → ∀ request,
          world.arriving = some request → world.Contradicts request →
            world.HandedOverUpTo request.parentRequestId := fun _ _ _ fits => fits.agrees
      refine ⟨sound.call (fun _ reachable => reachable) agrees last, fun requestId => ?_⟩
      apply (roomy requestId).call sound (fun _ reachable => reachable) agrees ?_ last
      intro service view offered fits request arriving _ takes
      exact fits.room request arriving takes

/-- While no datagram contradicts a parent that waits for payloads, and payloads leave room for
the later ones, the responder can always get rid of its pending datagram and of the parent at
the head of `responder_order_`. -/
theorem responder_never_wedged {configuration : World.Configuration}
    (responses : configuration.responseCapacity ≠ 0)
    (receives : configuration.receiveQueueCapacity ≠ 0)
    (entries : configuration.receiveCqCapacity ≠ 0)
    (calls : ResponderCalls QpService.Reachable Fits (ResponderState.initial configuration) state)
    (reachable : service.Reachable)
    (found : service.workerQpView state.world.responder.qpNum = .ok view) :
    Unwedged service state := by
  obtain ⟨sound, roomy⟩ := roomy_of_calls responses receives entries calls
  have qpNum := QpService.workerQpView_qpNum reachable.valid found
  have running : Running view state := ⟨sound, qpNum.symm⟩
  rw [← qpNum] at found
  constructor
  · intro request pending
    obtain ⟨next, arms, -, none⟩ := running.exists_armed reachable found
    exact ⟨next, arms.mono fun _ => trivial, none⟩
  · intro requestId order head
    have atHead : AtHead view requestId state := by
      refine ⟨running, ?_, roomy requestId⟩
      rw [head]
      rfl
    obtain ⟨_, parent, -, present⟩ := atHead.exists_parent
    exact atHead.retirable reachable found present

end Liveness

namespace Loopback

open Ugdr.Control.Loopback

def responderView : WorkerQpView :=
  { requesterView with qpNum := 2, peerQpNum := 1 }

/-- The first of two payloads. -/
def firstHalf : RequestDatagram :=
  { smallDatagram with payloadLength := 4, payloadCount := 2 }

def halfInflight : ResponderInflight :=
  (responderInflightOf firstHalf 8192 none).advance firstHalf

/-- Half of the parent was handed over. -/
def halfWorld : World :=
  { World.initial configuration with
    responder :=
      { (World.initial configuration).responder with
        responderInflight := Function.update (fun _ => none) (requestId 1) (some halfInflight)
        responderOrder := [requestId 1]
        pendingBackendRequests := [backendRequestOf firstHalf 8192] }
    trace :=
      [.resolved service responderView firstHalf,
        .disposed firstHalf (.backendRequest (backendRequestOf firstHalf 8192))] }

def halfState : ResponderState :=
  { phase := .requests, world := halfWorld }

theorem tryRequest_firstHalf :
    tryRequest service responderView ((World.initial configuration).offer (some firstHalf)) =
      (true, halfWorld) := by
  simp [tryRequest, World.offer, World.initial, LoopWorker.create, configuration,
    LocalTransport.tryPopRequest, handleRequest, firstHalf, smallDatagram, admitRequest,
    validFirst, responderView, requesterView, resolveRkey_small, peekReceive, acceptPayload,
    validPayload, responderInflightOf, consumeReceive, LoopWorker.setResponderInflight, halfWorld,
    halfInflight, backendBatchCapacity]

theorem halfState_calls :
    ResponderCalls QpService.Reachable Fits (ResponderState.initial configuration) halfState := by
  have settled : Settled (ResponderState.initial configuration) := ⟨rfl, rfl, rfl, nofun⟩
  have running : Running responderView (ResponderState.initial configuration) :=
    ⟨.initial (by decide) (by decide) (by decide), rfl⟩
  have fits : Fits service responderView
      ((World.initial configuration).offer (some firstHalf)) := by
    refine ⟨fun request _ contradicts => ?_, fun request arriving _ => ?_⟩
    · obtain ⟨-, parent, found, -⟩ := contradicts
      cases found
    · injection arriving with same
      rw [← same]
      exact Nat.le_of_lt_succ (by decide)
  have call : ResponderCall QpService.Reachable Fits
      ⟨.requests, World.initial configuration, []⟩ _ :=
    .request ⟨.requests, World.initial configuration, []⟩ service responderView
      (some firstHalf) rfl service_reachable responderView_eq fits
  dsimp only at call
  rw [tryRequest_firstHalf] at call
  exact (settled.toRequests running service_reachable responderView_eq).tail call

/-- The first datagram of another parent, which wants a receive. -/
def wantsReceive : RequestDatagram :=
  { smallDatagram with parentRequestId := requestId 2, opcode := .rdmaWriteWithImmediate }

/-- Behind the parent that waits for its other half, the datagram waits for a receive. -/
def waitingState : ResponderState :=
  { phase := .requests
    world :=
      { halfWorld with
        responder := { halfWorld.responder with pendingRequest := some wantsReceive } } }

theorem wantsReceive_absent :
    halfWorld.responder.responderInflight wantsReceive.parentRequestId = none := by
  simp [halfWorld, wantsReceive, World.initial]
  decide

theorem tryRequest_wantsReceive :
    tryRequest service responderView (halfWorld.offer (some wantsReceive)) =
      (true, waitingState.world) := by
  have addressed : ¬(wantsReceive.targetQpNum ≠ responderView.qpNum ∨
      2 ^ 32 - 1 < wantsReceive.parentTotalLength) := by
    decide
  change handleRequest service responderView true wantsReceive waitingState.world = _
  have absent : waitingState.world.responder.responderInflight wantsReceive.parentRequestId =
      none := wantsReceive_absent
  have empty : waitingState.world.receiveQueue.peek = .error .eagain := rfl
  simp only [handleRequest, if_neg addressed, absent, admitRequest]
  simp [wantsReceive, smallDatagram, validFirst, responderView, requesterView, resolveRkey_small,
    peekReceive, empty]

theorem waitingState_calls :
    ResponderCalls QpService.Reachable Fits (ResponderState.initial configuration)
      waitingState := by
  have fits : Fits service responderView (halfWorld.offer (some wantsReceive)) := by
    refine ⟨fun request arriving contradicts => ?_, fun request arriving _ => ?_⟩
    · injection arriving with same
      subst same
      obtain ⟨-, parent, found, -⟩ := contradicts
      exact absurd (wantsReceive_absent.symm.trans found) (Option.some_ne_none parent).symm
    · injection arriving with same
      rw [← same]
      exact Nat.le_of_lt_succ (by decide)
  have call : ResponderCall QpService.Reachable Fits ⟨.requests, halfWorld, []⟩ _ :=
    .request ⟨.requests, halfWorld, []⟩ service responderView (some wantsReceive) rfl
      service_reachable responderView_eq fits
  dsimp only at call
  rw [tryRequest_wantsReceive] at call
  exact halfState_calls.tail call

end Loopback

theorem responder_never_wedged_waitingState :
    Loopback.waitingState.world.responder.pendingRequest = some Loopback.wantsReceive ∧
      Loopback.waitingState.world.responder.responderOrder = [Loopback.requestId 1] ∧
        Unwedged Loopback.service Loopback.waitingState :=
  ⟨rfl, rfl, responder_never_wedged (by decide) (by decide) (by decide)
    Loopback.waitingState_calls Loopback.service_reachable Loopback.responderView_eq⟩

/-! ## A stale datagram -/

/-- The pending datagram contradicts its parent, and the parent waits for another one. -/
structure Blocked (request : RequestDatagram) (world : World) : Prop where
  pending : world.responder.pendingRequest = some request
  addressed : Addressed world request
  parent : ∃ parent, world.responder.responderInflight request.parentRequestId = some parent ∧
    validPayload request parent = false ∧ parent.nextPayloadIndex ≠ parent.payloadCount

namespace Blocked

variable {world next : World} {request : RequestDatagram} (blocked : Blocked request world)

include blocked

theorem of_sameWork (same : SameWork world next) : Blocked request next := by
  obtain ⟨parent, found, invalid, unsubmitted⟩ := blocked.parent
  obtain ⟨other, found, cursor⟩ := same.forward _ parent found
  refine ⟨same.pending.trans blocked.pending, (same.addressed request).mpr blocked.addressed,
    other, found, (cursor.valid request).trans invalid, ?_⟩
  rw [cursor.nextPayloadIndex, cursor.payloadCount]
  exact unsubmitted

theorem tryParentResponse (view : WorkerQpView) :
    Blocked request (Worker.tryParentResponse view world).2 := by
  unfold Worker.tryParentResponse
  split
  · exact blocked
  · split
    · exact ⟨blocked.pending, blocked.addressed, blocked.parent⟩
    · split
      · exact blocked
      · rename_i requestId _ _ _ parent found complete
        rw [not_or, not_not] at complete
        rcases answerParent_cases view requestId parent world with same | answers
        · rw [same]
          exact blocked
        · rw [answers]
          refine ⟨blocked.pending, blocked.addressed, ?_⟩
          obtain ⟨own, present, invalid, unsubmitted⟩ := blocked.parent
          have other : request.parentRequestId ≠ requestId := by
            rintro same
            rw [same, found] at present
            injection present with same
            exact unsubmitted (same ▸ complete.1)
          exact ⟨own, (Function.update_of_ne other _ _).trans present, invalid, unsubmitted⟩

theorem tryRequest {service : QpService} {view : WorkerQpView}
    (qpNum : view.qpNum = world.responder.qpNum) :
    Blocked request (Worker.tryRequest service view world).2 := by
  obtain ⟨parent, found, invalid, unsubmitted⟩ := blocked.parent
  have misaddressed : ¬(request.targetQpNum ≠ view.qpNum ∨
      2 ^ 32 - 1 < request.parentTotalLength) := by
    rw [not_or, not_not, Nat.not_lt]
    exact ⟨blocked.addressed.1.trans qpNum.symm, blocked.addressed.2⟩
  unfold Worker.tryRequest
  rw [blocked.pending]
  simp only [handleRequest, if_neg misaddressed, found, acceptPayload, if_pos invalid]
  exact ⟨blocked.pending, blocked.addressed, _, Function.update_self _ _ _, invalid, unsubmitted⟩

end Blocked

theorem Blocked.call {services : QpService → Prop}
    {fits : QpService → WorkerQpView → World → Prop} {state after : ResponderState}
    {request : RequestDatagram} (blocked : Blocked request state.world)
    (reachable : ∀ service, services service → service.Reachable)
    (call : ResponderCall services fits state after) : Blocked request after.world := by
  cases call with
  | surroundings world moved => exact blocked.of_sameWork (.of_surroundings moved)
  | completions completed rest phase batch accepted =>
      exact blocked.of_sameWork (.tryBackendCompletions _ state.world)
  | response service view phase serves found => exact blocked.tryParentResponse view
  | flush accepted phase =>
      exact blocked.of_sameWork (.tryFlushBackendRequests accepted state.world)
  | request service view offered phase serves found fitting =>
      have qpNum := QpService.workerQpView_qpNum (reachable service serves).valid found
      exact (blocked.of_sameWork (.offer state.world offered)).tryRequest qpNum

/-- The datagram stays pending whatever happens. -/
theorem Blocked.not_unwedged {service : QpService} {state : ResponderState}
    {request : RequestDatagram} (blocked : Blocked request state.world)
    (reachable : service.Reachable) : ¬Unwedged service state := by
  intro unwedged
  obtain ⟨next, calls, none⟩ := unwedged.pending request blocked.pending
  have still : Blocked request next.world := by
    clear none
    induction calls with
    | refl => exact blocked
    | tail earlier last induction =>
        exact induction.call (fun other (same : other = service) => same ▸ reachable) last
  rw [still.pending] at none
  cases none

namespace Loopback

open Ugdr.Control.Loopback

/-- The first payload was delivered once more. -/
def staleWorld : World :=
  { halfWorld with
    responder :=
      { halfWorld.responder.setResponderInflight (requestId 1)
          { halfInflight with parentError := .remoteInvalidRequest } with
        pendingRequest := some firstHalf }
    trace := halfWorld.trace ++ [.invalidPayload firstHalf] }

def staleState : ResponderState :=
  { phase := .requests, world := staleWorld }

theorem firstHalf_invalid : validPayload firstHalf halfInflight = false := by
  decide

theorem tryRequest_stale :
    tryRequest service responderView (halfWorld.offer (some firstHalf)) = (true, staleWorld) := by
  have addressed : ¬(firstHalf.targetQpNum ≠ responderView.qpNum ∨
      2 ^ 32 - 1 < firstHalf.parentTotalLength) := by
    decide
  change handleRequest service responderView true firstHalf
    { halfWorld with
      responder := { halfWorld.responder with pendingRequest := some firstHalf } } = _
  have found : halfWorld.responder.responderInflight firstHalf.parentRequestId =
      some halfInflight := by
    simp [halfWorld, firstHalf, smallDatagram]
  simp only [handleRequest, if_neg addressed, found, acceptPayload, if_pos firstHalf_invalid]
  rfl

theorem staleWorld_blocked : Blocked firstHalf staleWorld where
  pending := rfl
  addressed := ⟨rfl, by decide⟩
  parent :=
    ⟨{ halfInflight with parentError := .remoteInvalidRequest },
      by simp [staleWorld, LoopWorker.setResponderInflight, firstHalf, smallDatagram],
      firstHalf_invalid, by decide⟩

end Loopback

/-- A payload that is delivered twice stays pending forever. -/
theorem stale_datagram_wedges :
    ResponderCalls QpService.Reachable anyDatagram
        (ResponderState.initial Loopback.configuration) Loopback.staleState ∧
      ¬Unwedged Loopback.service Loopback.staleState := by
  refine ⟨?_, Blocked.not_unwedged Loopback.staleWorld_blocked Loopback.service_reachable⟩
  have call : ResponderCall QpService.Reachable anyDatagram ⟨.requests, Loopback.halfWorld, []⟩ _ :=
    .request ⟨.requests, Loopback.halfWorld, []⟩ Loopback.service Loopback.responderView
      (some Loopback.firstHalf) rfl Loopback.service_reachable Loopback.responderView_eq trivial
  dsimp only at call
  rw [Loopback.tryRequest_stale] at call
  exact (Loopback.halfState_calls.mono fun _ => trivial).tail call

end Ugdr.Worker
