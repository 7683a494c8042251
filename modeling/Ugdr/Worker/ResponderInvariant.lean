import Ugdr.Worker.ResponderCalls
import Mathlib.Data.List.TakeWhile

/-! # The state of a responder between two calls

What keeps the responder moving: a parent in flight waits for datagrams or for the backend and
for nothing else, the receive queue is peeked only for the pending datagram, and a pending
datagram that contradicts its parent has only handed over parents before it.
-/

namespace Ugdr.Worker

open Ugdr.Queue Ugdr.Control
open Ugdr.Control.QpService (WorkerQpView)

variable {world next : World} {outstanding : List BackendRequest}

/-! ## Parents -/

/-- The cursor and the bitmap of a parent stay inside its counts. -/
structure ParentSound (qpNum : Nat) (parent : ResponderInflight) : Prop where
  nonempty : parent.payloadCount ≠ 0
  targetQpNum : parent.targetQpNum = qpNum
  length : parent.parentTotalLength ≤ 2 ^ 32 - 1
  index : parent.nextPayloadIndex ≤ parent.payloadCount
  offset : parent.nextPayloadOffset ≤ parent.parentTotalLength
  terminalLength : parent.terminal.length = parent.payloadCount
  terminalCount : parent.terminalCount = parent.terminal.count true

/-- The parents differ in the results of payloads only. -/
structure SameCursor (parent other : ResponderInflight) : Prop where
  payloadCount : other.payloadCount = parent.payloadCount
  nextPayloadIndex : other.nextPayloadIndex = parent.nextPayloadIndex
  parentTotalLength : other.parentTotalLength = parent.parentTotalLength
  nextPayloadOffset : other.nextPayloadOffset = parent.nextPayloadOffset
  hasReceive : other.hasReceive = parent.hasReceive
  receiveConsumed : other.receiveConsumed = parent.receiveConsumed
  valid : ∀ request, validPayload request other = validPayload request parent

theorem SameCursor.refl (parent : ResponderInflight) : SameCursor parent parent :=
  ⟨rfl, rfl, rfl, rfl, rfl, rfl, fun _ => rfl⟩

theorem SameCursor.trans {parent middle other : ResponderInflight}
    (first : SameCursor parent middle) (second : SameCursor middle other) :
    SameCursor parent other where
  payloadCount := second.payloadCount.trans first.payloadCount
  nextPayloadIndex := second.nextPayloadIndex.trans first.nextPayloadIndex
  parentTotalLength := second.parentTotalLength.trans first.parentTotalLength
  nextPayloadOffset := second.nextPayloadOffset.trans first.nextPayloadOffset
  hasReceive := second.hasReceive.trans first.hasReceive
  receiveConsumed := second.receiveConsumed.trans first.receiveConsumed
  valid := fun request => (second.valid request).trans (first.valid request)

theorem sameCursor_record (parent : ResponderInflight) (completion : BackendCompletion) :
    SameCursor parent (parent.record completion) := by
  unfold ResponderInflight.record
  split <;> exact ⟨rfl, rfl, rfl, rfl, rfl, rfl, fun _ => rfl⟩

namespace ParentSound

variable {qpNum : Nat} {parent : ResponderInflight}

theorem record (sound : ParentSound qpNum parent) (completion : BackendCompletion) :
    ParentSound qpNum (parent.record completion) := by
  unfold ResponderInflight.record
  split
  · exact { sound with }
  · rename_i accepted
    obtain ⟨below, unmarked⟩ := not_or.mp accepted
    have inside : completion.payloadIndex < parent.terminal.length := by
      rw [sound.terminalLength]
      omega
    have clear : parent.terminal[completion.payloadIndex] = false := by
      rw [List.getElem?_eq_getElem inside] at unmarked
      simpa using unmarked
    refine { sound with terminalLength := ?_, terminalCount := ?_ }
    · rw [List.length_set]
      exact sound.terminalLength
    · rw [List.count_set inside, clear, sound.terminalCount]
      simp

theorem fresh {request : RequestDatagram} (addressed : request.targetQpNum = qpNum)
    (short : request.parentTotalLength ≤ 2 ^ 32 - 1) (nonempty : request.payloadCount ≠ 0)
    (target : Nat) (receive : Option ReceiveWqeHeader) :
    ParentSound qpNum (responderInflightOf request target receive) where
  nonempty := nonempty
  targetQpNum := addressed
  length := short
  index := Nat.zero_le _
  offset := Nat.zero_le _
  terminalLength := List.length_replicate
  terminalCount := by simp [responderInflightOf, List.count_replicate]

/-- What `valid_payload` says about a parent with payloads. -/
theorem valid_spec (sound : ParentSound qpNum parent) {request : RequestDatagram}
    (valid : validPayload request parent = true) :
    request.payloadIndex = parent.nextPayloadIndex ∧
      request.payloadIndex < parent.payloadCount ∧
      request.payloadOffset = parent.nextPayloadOffset ∧ request.payloadLength ≠ 0 ∧
      request.payloadOffset + request.payloadLength ≤ parent.parentTotalLength ∧
      request.parentTotalLength = parent.parentTotalLength ∧
      request.payloadCount = parent.payloadCount := by
  simp only [validPayload, decide_eq_true_eq] at valid
  obtain ⟨-, -, -, -, -, -, total, count, ⟨zero, -⟩ | ⟨-, index, below, offset, length, inside,
    fits⟩⟩ := valid
  · exact absurd zero sound.nonempty
  · exact ⟨index, below, offset, length, by omega, total, count⟩

theorem advance (sound : ParentSound qpNum parent) (consumed : Bool)
    {request : RequestDatagram} (valid : validPayload request parent = true) :
    ParentSound qpNum ({ parent with receiveConsumed := consumed }.advance request) := by
  obtain ⟨index, below, offset, -, inside, -, -⟩ := sound.valid_spec valid
  refine { sound with index := ?_, offset := ?_ }
  · simp only [ResponderInflight.advance]
    omega
  · simp only [ResponderInflight.advance]
    omega

end ParentSound

/-! ## Invariant -/

/-- The parent keeps the receive queue peeked. -/
def ResponderInflight.Holds (parent : ResponderInflight) : Prop :=
  parent.hasReceive = true ∧ parent.receiveConsumed = false

/-- Every payload that was handed over is terminal or with the backend. -/
def Tracked (world : World) (outstanding : List BackendRequest) (requestId : Nat)
    (parent : ResponderInflight) : Prop :=
  ∀ index < parent.nextPayloadIndex, parent.terminal[index]? = some true ∨
    ∃ request ∈ world.responder.pendingBackendRequests ++ outstanding,
      request.parentRequestId = requestId ∧ request.payloadIndex = index

/-- The queues can hold something, and between two calls nobody is in the middle of using
them, except that the responder may keep a receive peeked. -/
structure QueuesSound (world : World) : Prop where
  responses : world.transport.responseCapacity ≠ 0
  receives : world.receiveQueue.capacity ≠ 0
  receivesReserved : world.receiveQueue.reserved = 0
  entries : world.receiveCq.capacity ≠ 0
  entriesReserved : world.receiveCq.reserved = 0
  entriesPeeked : world.receiveCq.peeked = 0

/-- The invariant of a responder. -/
structure Sound (outstanding : List BackendRequest) (world : World) : Prop where
  order : world.responder.responderOrder.Nodup
  listed : ∀ requestId, requestId ∈ world.responder.responderOrder ↔
    world.responder.responderInflight requestId ≠ none
  parents : ∀ requestId parent, world.responder.responderInflight requestId = some parent →
    ParentSound world.responder.qpNum parent ∧ Tracked world outstanding requestId parent
  held : ∀ requestId parent, world.responder.responderInflight requestId = some parent →
    parent.Holds → world.receiveQueue.peeked = 1 ∧ ∃ request,
      world.responder.pendingRequest = some request ∧ request.parentRequestId = requestId ∧
        Addressed world request ∧ validPayload request parent = true
  peeked : world.receiveQueue.peeked = 0 ∨ ∃ requestId parent,
    world.responder.responderInflight requestId = some parent ∧ parent.Holds
  agrees : ∀ request, world.responder.pendingRequest = some request →
    world.Contradicts request → world.HandedOverUpTo request.parentRequestId
  queues : QueuesSound world

/-- No parent was added, removed or moved on, and the queues keep their sizes. -/
structure SameWork (world next : World) : Prop where
  qpNum : next.responder.qpNum = world.responder.qpNum
  order : next.responder.responderOrder = world.responder.responderOrder
  pending : next.responder.pendingRequest = world.responder.pendingRequest
  forward : ∀ requestId parent, world.responder.responderInflight requestId = some parent →
    ∃ other, next.responder.responderInflight requestId = some other ∧ SameCursor parent other
  backward : ∀ requestId other, next.responder.responderInflight requestId = some other →
    ∃ parent, world.responder.responderInflight requestId = some parent ∧
      SameCursor parent other
  peeked : next.receiveQueue.peeked = world.receiveQueue.peeked
  queues : QueuesSound world → QueuesSound next

theorem tryFlushBackendRequests_cases (accepted : Nat) (world : World) :
    tryFlushBackendRequests accepted world = (false, world) ∨ ∃ trace,
      tryFlushBackendRequests accepted world =
        (true,
          { world with
            responder :=
              { world.responder with
                pendingBackendRequests := world.responder.pendingBackendRequests.drop accepted }
            trace }) := by
  unfold tryFlushBackendRequests
  simp only
  split
  · exact .inl rfl
  · split
    · exact .inl rfl
    · exact .inr ⟨_, rfl⟩

/-- Peers and clients leave the responder alone. -/
theorem Surroundings.responder (moved : Surroundings world next) :
    next.responder = world.responder := by
  cases moved with
  | takeResponse response rest responses => rfl
  | postReceive receive =>
      unfold World.postReceive
      split <;> rfl
  | pollReceiveCq =>
      unfold World.pollReceiveCq
      split <;> rfl
  | foreignReceiveCompletion entry =>
      unfold World.foreignReceiveCompletion
      split <;> rfl

namespace SameWork

theorem of_same_inflight
    (inflight : next.responder.responderInflight = world.responder.responderInflight)
    (qpNum : next.responder.qpNum = world.responder.qpNum)
    (order : next.responder.responderOrder = world.responder.responderOrder)
    (pending : next.responder.pendingRequest = world.responder.pendingRequest)
    (peeked : next.receiveQueue.peeked = world.receiveQueue.peeked)
    (queues : QueuesSound world → QueuesSound next) : SameWork world next := by
  refine ⟨qpNum, order, pending, ?_, ?_, peeked, queues⟩
  · intro requestId parent found
    exact ⟨parent, by rw [inflight]; exact found, .refl parent⟩
  · intro requestId parent found
    rw [inflight] at found
    exact ⟨parent, found, .refl parent⟩

/-- A parent whose results change. -/
theorem update {requestId : Nat} {parent other : ResponderInflight}
    (found : world.responder.responderInflight requestId = some parent)
    (cursor : SameCursor parent other) :
    SameWork world
      { world with responder := world.responder.setResponderInflight requestId other } := by
  refine ⟨rfl, rfl, rfl, fun id stored own => ?_, fun id stored own => ?_, rfl,
    fun queues => { queues with }⟩
  · by_cases same : id = requestId
    · subst same
      rw [found] at own
      injection own with own
      exact ⟨other, Function.update_self _ _ _, own ▸ cursor⟩
    · exact ⟨stored, (Function.update_of_ne same _ _).trans own, .refl stored⟩
  · by_cases same : id = requestId
    · subst same
      change Function.update _ _ _ _ = _ at own
      rw [Function.update_self] at own
      injection own with own
      exact ⟨parent, found, own ▸ cursor⟩
    · change Function.update _ _ _ _ = _ at own
      rw [Function.update_of_ne same] at own
      exact ⟨stored, own, .refl stored⟩

theorem of_surroundings (moved : Surroundings world next) : SameWork world next := by
  cases moved with
  | takeResponse response rest responses =>
      exact .of_same_inflight rfl rfl rfl rfl rfl fun queues => { queues with }
  | postReceive receive =>
      unfold World.postReceive
      split
      · exact .of_same_inflight rfl rfl rfl rfl rfl id
      · rename_i receiveQueue produced
        obtain ⟨-, rfl⟩ := Fifo.produce_eq_ok produced
        exact .of_same_inflight rfl rfl rfl rfl rfl fun queues => { queues with }
  | pollReceiveCq =>
      unfold World.pollReceiveCq
      split
      · exact .of_same_inflight rfl rfl rfl rfl rfl id
      · rename_i entry receiveCq consumed
        obtain ⟨rest, -, rfl⟩ := Fifo.consume_eq_ok consumed
        exact .of_same_inflight rfl rfl rfl rfl rfl fun queues => { queues with }
  | foreignReceiveCompletion entry =>
      unfold World.foreignReceiveCompletion
      split
      · exact .of_same_inflight rfl rfl rfl rfl rfl id
      · rename_i receiveCq produced
        obtain ⟨-, rfl⟩ := Fifo.produce_eq_ok produced
        exact .of_same_inflight rfl rfl rfl rfl rfl fun queues => { queues with }

theorem recordCompletion (world : World) (completion : BackendCompletion) :
    SameWork world (Worker.recordCompletion world completion) := by
  unfold Worker.recordCompletion
  simp only
  split
  · exact .of_same_inflight rfl rfl rfl rfl rfl fun queues => { queues with }
  · rename_i parent found
    exact
      { SameWork.update found (sameCursor_record parent completion) with
        queues := fun queues => { queues with } }

theorem refl (world : World) : SameWork world world :=
  .of_same_inflight rfl rfl rfl rfl rfl id

theorem trans {middle : World} (first : SameWork world middle) (second : SameWork middle next) :
    SameWork world next := by
  refine ⟨second.qpNum.trans first.qpNum, second.order.trans first.order,
    second.pending.trans first.pending, fun requestId parent found => ?_,
    fun requestId other found => ?_, second.peeked.trans first.peeked,
    second.queues ∘ first.queues⟩
  · obtain ⟨between, found, earlier⟩ := first.forward requestId parent found
    obtain ⟨other, found, later⟩ := second.forward requestId between found
    exact ⟨other, found, earlier.trans later⟩
  · obtain ⟨between, found, later⟩ := second.backward requestId other found
    obtain ⟨parent, found, earlier⟩ := first.backward requestId between found
    exact ⟨parent, found, earlier.trans later⟩

theorem tryBackendCompletions (completions : List BackendCompletion) (world : World) :
    SameWork world (Worker.tryBackendCompletions completions world).2 := by
  change SameWork world (List.foldl _ _ _)
  induction completions generalizing world with
  | nil => exact .refl world
  | cons completion completions induction =>
      exact (SameWork.recordCompletion world completion).trans (induction _)

theorem tryFlushBackendRequests (accepted : Nat) (world : World) :
    SameWork world (Worker.tryFlushBackendRequests accepted world).2 := by
  rcases tryFlushBackendRequests_cases accepted world with same | ⟨trace, flushed⟩
  · rw [same]
    exact .of_same_inflight rfl rfl rfl rfl rfl id
  · rw [flushed]
    exact .of_same_inflight rfl rfl rfl rfl rfl fun queues => { queues with }

theorem offer (world : World) (offered : Option RequestDatagram) :
    SameWork world (world.offer offered) :=
  .of_same_inflight rfl rfl rfl rfl rfl fun queues => { queues with }

variable (same : SameWork world next)

include same

theorem inflight_iff (requestId : Nat) :
    next.responder.responderInflight requestId ≠ none ↔
      world.responder.responderInflight requestId ≠ none := by
  simp only [Option.ne_none_iff_exists']
  constructor
  · rintro ⟨other, found⟩
    obtain ⟨parent, found, -⟩ := same.backward requestId other found
    exact ⟨parent, found⟩
  · rintro ⟨parent, found⟩
    obtain ⟨other, found, -⟩ := same.forward requestId parent found
    exact ⟨other, found⟩

theorem addressed (request : RequestDatagram) :
    Addressed next request ↔ Addressed world request := by
  rw [Addressed, Addressed, same.qpNum]

theorem handedOver {requestId : Nat} (handed : world.HandedOver requestId) :
    next.HandedOver requestId := by
  intro other found
  obtain ⟨parent, found, cursor⟩ := same.backward requestId other found
  rw [cursor.nextPayloadIndex, cursor.payloadCount]
  exact handed parent found

theorem contradicts {request : RequestDatagram} (contradicts : next.Contradicts request) :
    world.Contradicts request := by
  obtain ⟨addressed, other, found, invalid⟩ := contradicts
  obtain ⟨parent, found, cursor⟩ := same.backward _ other found
  exact ⟨(same.addressed request).mp addressed, parent, found,
    (cursor.valid request).symm.trans invalid⟩

/-- Only what concerns the results and the backend is left to show. -/
theorem sound {others : List BackendRequest} (sound : Sound outstanding world)
    (parents : ∀ requestId parent, next.responder.responderInflight requestId = some parent →
      ParentSound next.responder.qpNum parent ∧ Tracked next others requestId parent) :
    Sound others next := by
  constructor
  · rw [same.order]
    exact sound.order
  · intro requestId
    rw [same.order, same.inflight_iff]
    exact sound.listed requestId
  · exact parents
  · intro requestId other found holds
    obtain ⟨parent, found, cursor⟩ := same.backward requestId other found
    obtain ⟨hasReceive, unconsumed⟩ := holds
    rw [cursor.hasReceive] at hasReceive
    rw [cursor.receiveConsumed] at unconsumed
    obtain ⟨peeked, request, pending, own, addressed, valid⟩ :=
      sound.held requestId parent found ⟨hasReceive, unconsumed⟩
    exact ⟨same.peeked.trans peeked, request, same.pending.trans pending, own,
      (same.addressed request).mpr addressed, (cursor.valid request).trans valid⟩
  · rw [same.peeked]
    refine sound.peeked.imp_right ?_
    rintro ⟨requestId, parent, found, hasReceive, unconsumed⟩
    obtain ⟨other, found, cursor⟩ := same.forward requestId parent found
    exact ⟨requestId, other, found, cursor.hasReceive.trans hasReceive,
      cursor.receiveConsumed.trans unconsumed⟩
  · intro request pending contradicts
    rw [same.pending] at pending
    obtain ⟨handed, earlier⟩ := sound.agrees request pending (same.contradicts contradicts)
    refine ⟨same.handedOver handed, ?_⟩
    rw [same.order]
    exact fun other member => same.handedOver (earlier other member)
  · exact same.queues sound.queues

/-- A step beside the responder. -/
theorem keeps (sound : Sound outstanding world) (responder : next.responder = world.responder) :
    Sound outstanding next := by
  apply same.sound sound
  intro requestId parent found
  rw [responder] at found
  obtain ⟨whole, tracked⟩ := sound.parents requestId parent found
  unfold Tracked
  rw [responder]
  exact ⟨whole, tracked⟩

end SameWork

/-! ## Steps of a request -/

theorem consumeReceive_eq {parent consumed : ResponderInflight}
    {queue receiveQueue : Fifo ReceiveWqeHeader}
    (consumes : consumeReceive parent queue = .ok (consumed, receiveQueue)) :
    ∃ released, consumed = { parent with receiveConsumed := released } := by
  unfold consumeReceive at consumes
  split at consumes
  · split at consumes
    · cases consumes
    · simp only [Except.ok.injEq, Prod.mk.injEq] at consumes
      exact ⟨true, consumes.1.symm⟩
  · simp only [Except.ok.injEq, Prod.mk.injEq] at consumes
    exact ⟨parent.receiveConsumed, consumes.1.symm⟩

/-- What `try_request` does to the state once a request is pending. -/
inductive RequestStep (service : QpService) (view : WorkerQpView) : World → World → Prop
  | refuse (world : World) (request : RequestDatagram) (result : DatagramResult)
      (disposal : Disposal) (resolution : List Event)
      (pending : world.responder.pendingRequest = some request)
      (reason : Rejects world request result disposal resolution) :
      RequestStep service view world
        (world.refuse request result (resolution ++ [.disposed request disposal]))
  | spoil (world : World) (request : RequestDatagram) (parent : ResponderInflight)
      (pending : world.responder.pendingRequest = some request)
      (addressed : Addressed world request)
      (found : world.responder.responderInflight request.parentRequestId = some parent)
      (invalid : validPayload request parent = false) :
      RequestStep service view world
        { world with
          responder :=
            world.responder.setResponderInflight request.parentRequestId
              { parent with parentError := .remoteInvalidRequest }
          trace := world.trace ++ [.invalidPayload request] }
  | handOver (world : World) (request : RequestDatagram) (parent consumed : ResponderInflight)
      (receiveQueue : Fifo ReceiveWqeHeader)
      (pending : world.responder.pendingRequest = some request)
      (addressed : Addressed world request)
      (found : world.responder.responderInflight request.parentRequestId = some parent)
      (valid : validPayload request parent = true)
      (consumes : consumeReceive parent world.receiveQueue = .ok (consumed, receiveQueue)) :
      RequestStep service view world (world.handOver request parent consumed receiveQueue)
  | admitParent (world : World) (request : RequestDatagram) (target : Nat)
      (receive : Option ReceiveWqeHeader) (receiveQueue : Fifo ReceiveWqeHeader)
      (pending : world.responder.pendingRequest = some request)
      (addressed : Addressed world request)
      (absent : world.responder.responderInflight request.parentRequestId = none)
      (valid : validFirst request = true)
      (resolved : service.resolveRkey view.sessionId view.pdIdentity request.rkey
        request.remoteAddress request.parentTotalLength = .ok target)
      (peeked : peekReceive request.opcode world.receiveQueue = .ok (receive, receiveQueue)) :
      RequestStep service view world
        (world.admitParent service view request target receive receiveQueue)

/-- The steps of one call. -/
abbrev RequestSteps (service : QpService) (view : WorkerQpView) : World → World → Prop :=
  Relation.ReflTransGen (RequestStep service view)

section Steps

variable {service : QpService} {view : WorkerQpView} {request : RequestDatagram}
  {parent : ResponderInflight}

theorem reject_steps (pending : world.responder.pendingRequest = some request)
    {result : DatagramResult} {disposal : Disposal} {resolution : List Event}
    (reason : Rejects world request result disposal resolution) (fresh : Bool) :
    RequestSteps service view world
      (rejectRequest fresh request result (resolution ++ [.disposed request disposal]) world).2
    := by
  rcases rejectRequest_cases fresh request result (resolution ++ [.disposed request disposal])
    world with same | refused
  · rw [same]
  · rw [refused]
    exact .single (.refuse world request result disposal resolution pending reason)

theorem acceptPayload_steps (pending : world.responder.pendingRequest = some request)
    (addressed : Addressed world request)
    (found : world.responder.responderInflight request.parentRequestId = some parent)
    (nonempty : parent.payloadCount ≠ 0) (fresh : Bool) :
    RequestSteps service view world (acceptPayload fresh request parent world).2 := by
  rcases acceptPayload_cases fresh request parent nonempty world
    with same | ⟨invalid, spoiled⟩ | ⟨valid, consumed, receiveQueue, consumes, handed⟩
  · rw [same]
  · rw [spoiled]
    exact .single (.spoil world request parent pending addressed found invalid)
  · rw [handed]
    exact .single (.handOver world request parent consumed receiveQueue pending addressed found
      valid consumes)

theorem admitRequest_steps (pending : world.responder.pendingRequest = some request)
    (addressed : Addressed world request)
    (absent : world.responder.responderInflight request.parentRequestId = none) (fresh : Bool) :
    RequestSteps service view world (admitRequest service view fresh request world).2 := by
  unfold admitRequest
  by_cases invalid : validFirst request = false
  · rw [if_pos invalid]
    exact reject_steps pending (.first addressed absent invalid) fresh
  · rw [if_neg invalid]
    rw [Bool.not_eq_false] at invalid
    cases resolved : service.resolveRkey view.sessionId view.pdIdentity request.rkey
        request.remoteAddress request.parentTotalLength with
    | error status =>
        exact reject_steps pending
          (.access service view status addressed absent invalid resolved) fresh
    | ok target =>
        cases peeked : peekReceive request.opcode world.receiveQueue with
        | error status => exact .refl
        | ok found =>
            obtain ⟨receive, receiveQueue⟩ := found
            have admits := RequestStep.admitParent world request target receive receiveQueue pending
              addressed absent invalid resolved peeked
            have nonempty := validFirst_payloadCount invalid (resolveKey_length_ne_zero resolved)
            have enters : (world.admitParent service view request target receive
                receiveQueue).responder.responderInflight request.parentRequestId =
                some (responderInflightOf request target receive) :=
              Function.update_self _ _ _
            refine .head admits (acceptPayload_steps ?_ ?_ enters nonempty fresh)
            · exact pending
            · exact addressed

/-- From the loaded state on, the call is a sequence of steps. -/
theorem tryRequest_steps (qpNum : view.qpNum = world.responder.qpNum)
    (nonempty : ∀ requestId parent,
      world.responder.responderInflight requestId = some parent → parent.payloadCount ≠ 0) :
    RequestSteps service view world.loaded (tryRequest service view world).2 := by
  obtain ⟨fresh, handles⟩ := tryRequest_eq service view world
  rw [handles]
  have pending := world.loaded_pending
  have inflight : world.loaded.responder.responderInflight =
      world.responder.responderInflight := by
    rcases world.loaded_cases with ⟨same, -⟩ | ⟨_, _, -, -, loaded⟩
    · rw [same]
    · rw [loaded]
  have number : view.qpNum = world.loaded.responder.qpNum := by
    rcases world.loaded_cases with ⟨same, -⟩ | ⟨_, _, -, -, loaded⟩
    · rw [same, qpNum]
    · rw [loaded, qpNum]
  cases arriving : world.arriving with
  | none =>
      rcases world.loaded_cases with ⟨same, -⟩ | ⟨_, _, -, -, loaded⟩
      · rw [same]
      · rw [loaded, arriving] at pending
        cases pending
  | some request =>
      rw [arriving] at pending
      simp only
      unfold handleRequest
      by_cases misaddressed :
          request.targetQpNum ≠ view.qpNum ∨ 2 ^ 32 - 1 < request.parentTotalLength
      · rw [if_pos misaddressed]
        refine reject_steps pending (.target ?_) fresh
        rintro ⟨target, length⟩
        rcases misaddressed with other | long
        · exact other (target.trans number.symm)
        · omega
      · rw [if_neg misaddressed]
        rw [not_or, not_not, Nat.not_lt] at misaddressed
        have addressed : Addressed world.loaded request :=
          ⟨misaddressed.1.trans number, misaddressed.2⟩
        cases found : world.loaded.responder.responderInflight request.parentRequestId with
        | some parent =>
            have counted := nonempty _ parent (inflight ▸ found)
            exact acceptPayload_steps pending addressed found counted fresh
        | none => exact admitRequest_steps pending addressed found fresh

end Steps

end Ugdr.Worker
