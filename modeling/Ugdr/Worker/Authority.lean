import Ugdr.Worker.Daemon
import Ugdr.Worker.Conservation
import Ugdr.Worker.Wraparound

/-! # Authorised memory

Every request for the backend reads a range that a local key of its WR was resolved
for and writes a range that the remote key of its parent was resolved for, in the
control states of those moments.
-/

namespace Ugdr.Worker

open Ugdr.Queue Ugdr.Control
open Ugdr.Control.QpService (WorkerQpView)

/-! ## Sources of datagrams -/

/-- A datagram with payload reads inside one segment of its parent. -/
theorem PendingSend.datagram_source {payloadBytes : Nat} {parent : PendingSend}
    (nonempty : (parent.datagram payloadBytes).payloadLength ≠ 0) :
    ∃ segment ∈ parent.sourceSegments, ∃ offset,
      (parent.datagram payloadBytes).sourceDaemonAddress =
        (segment.daemonAddress + offset) % 2 ^ 64 ∧
      offset + (parent.datagram payloadBytes).payloadLength ≤ segment.length := by
  by_cases zero : parent.totalLength = 0
  · simp [PendingSend.datagram, zero] at nonempty
  cases found : parent.sourceSegments[parent.segmentIndex]? with
  | none => simp [PendingSend.datagram, zero, found] at nonempty
  | some segment =>
      obtain ⟨-, -, length, source⟩ := datagram_of_found payloadBytes zero found
      refine ⟨segment, List.mem_of_getElem? found, parent.segmentOffset, source, ?_⟩
      omega

theorem PendingSend.source_of_mem_datagramsFrom {payloadBytes count : Nat}
    {parent : PendingSend} {request : RequestDatagram}
    (member : request ∈ datagramsFrom payloadBytes count parent)
    (nonempty : request.payloadLength ≠ 0) :
    ∃ segment ∈ parent.sourceSegments, ∃ offset,
      request.sourceDaemonAddress = (segment.daemonAddress + offset) % 2 ^ 64 ∧
      offset + request.payloadLength ≤ segment.length := by
  induction count generalizing parent with
  | zero => cases member
  | succ count induction =>
      rcases List.mem_cons.mp member with rfl | member
      · exact datagram_source nonempty
      · have segments : (parent.advance payloadBytes).sourceSegments = parent.sourceSegments := by
          rw [advance_frame]
        rw [← segments]
        exact induction member

/-! ## Admission of parents -/

/-- The last decision of `resolve_rkey` about a parent with this request id. -/
def admission (requestId : Nat) (trace : List Event) :
    Option (QpService × WorkerQpView × RequestDatagram) :=
  trace.foldl
    (fun last event =>
      match event with
      | .resolved service view request =>
          if request.parentRequestId = requestId then some (service, view, request) else last
      | _ => last)
    none

@[simp] theorem admission_concat (requestId : Nat) (trace : List Event) (event : Event) :
    admission requestId (trace ++ [event]) =
      match event with
      | .resolved service view request =>
          if request.parentRequestId = requestId then some (service, view, request)
          else admission requestId trace
      | _ => admission requestId trace := by
  rw [admission, List.foldl_append]
  cases event <;> rfl

/-- Events other than decisions change no admission. -/
theorem admission_append {requestId : Nat} {trace events : List Event}
    (undecided : ∀ event ∈ events, event.resolved? = none) :
    admission requestId (trace ++ events) = admission requestId trace := by
  induction events using List.reverseRecOn with
  | nil => rw [List.append_nil]
  | append_singleton events event induction =>
      have last := undecided event (by simp)
      rw [← List.append_assoc, admission_concat,
        induction fun other member => undecided other (by simp [member])]
      cases event <;> first | rfl | cases last

/-- The parent was admitted with the target that its remote key resolved to. -/
def Admitted (trace : List Event) (requestId : Nat) (parent : ResponderInflight) : Prop :=
  ∃ service view request, admission requestId trace = some (service, view, request) ∧
    service.resolveRkey view.sessionId view.pdIdentity request.rkey request.remoteAddress
      request.parentTotalLength = .ok parent.targetDaemonAddress ∧
    request.parentTotalLength = parent.parentTotalLength

/-- The target of a backend request lies in the range that was resolved when its parent
was admitted. -/
def TargetResolved (trace : List Event) (request : BackendRequest) : Prop :=
  ∃ service view first target,
    admission request.parentRequestId trace = some (service, view, first) ∧
    service.resolveRkey view.sessionId view.pdIdentity first.rkey first.remoteAddress
      first.parentTotalLength = .ok target ∧
    request.targetDaemonAddress = (target + request.payloadOffset) % 2 ^ 64 ∧
    request.payloadOffset + request.payloadLength ≤ first.parentTotalLength

/-- The source of a backend request lies in the range that was resolved for an entry of
its WR when the WR was picked up. -/
def SourceResolved (trace : List Event) (request : BackendRequest) : Prop :=
  ∃ service view wqe parent, .issued service view wqe parent ∈ trace ∧
    parent.parentRequestId = request.parentRequestId ∧
    ∃ sge ∈ wqe.sgeList, ∃ source offset,
      service.resolveLkey view.sessionId view.pdIdentity sge.lkey sge.address sge.length =
        .ok source ∧
      request.sourceDaemonAddress = (source + offset) % 2 ^ 64 ∧
      offset + request.payloadLength ≤ sge.length

/-- A request for the backend is made of resolved ranges, and only requests that were
made are handed over. -/
def Justified (before : List Event) : Event → Prop
  | .disposed _ (.backendRequest request) =>
      TargetResolved before request ∧ SourceResolved before request
  | .accepted request => ∃ datagram, .disposed datagram (.backendRequest request) ∈ before
  | _ => True

structure Authority (world : World) : Prop where
  accounted : SendWrsAccounted world
  travelling : ∀ request ∈ world.travelling, .sent request ∈ world.trace
  admitted : ∀ requestId parent,
    world.responder.responderInflight requestId = some parent →
      Admitted world.trace requestId parent
  created : ∀ request ∈ world.responder.pendingBackendRequests,
    ∃ datagram, .disposed datagram (.backendRequest request) ∈ world.trace
  events : Trace.Every Justified world.trace

section Transition

variable {permitted : World → Event → Prop} {world next : World}

/-- Where the payload of a datagram that was sent comes from. -/
theorem Authority.source (authority : Authority world) {request : RequestDatagram}
    (sent : .sent request ∈ world.trace) (nonempty : request.payloadLength ≠ 0)
    {backendRequest : BackendRequest} {target : Nat}
    (made : backendRequest = backendRequestOf request target) :
    SourceResolved world.trace backendRequest := by
  have stream := authority.accounted.stream
  have member : request ∈ world.sent ++ world.unsent :=
    List.mem_append_left _ (List.mem_filterMap.mpr ⟨_, sent, rfl⟩)
  rw [stream.sent] at member
  obtain ⟨parent, issued, cut⟩ := List.mem_flatMap.mp member
  obtain ⟨event, recorded, isIssued⟩ := List.mem_filterMap.mp issued
  cases event <;> simp only [Event.issued?, Option.some.injEq, reduceCtorEq] at isIssued
  case issued service view wqe parent' =>
    subst isIssued
    obtain ⟨segment, inside, offset, source, fits⟩ :=
      PendingSend.source_of_mem_datagramsFrom cut nonempty
    obtain ⟨sge, entry, resolved, length⟩ :=
      exists_mem_of_forall₂ (authority.accounted.segments _ _ _ _ recorded) segment inside
    have carries := PendingSend.carries_of_mem cut
    subst made
    exact ⟨service, view, wqe, _, recorded, carries.parentRequestId.symm, sge, entry, _, offset,
      resolved, source, length ▸ fits⟩

theorem Authority.sender (authority : Authority world)
    (transition : SenderTransition permitted world next) : Authority next := by
  have accounted := authority.accounted.transition (.inl transition)
  have frame := transition.responderFrame
  obtain ⟨events, trace, own⟩ := frame.trace
  refine ⟨accounted, ?travelling, ?admitted, ?created, ?events⟩
  case travelling =>
    have old : ∀ request ∈ world.travelling, .sent request ∈ next.trace := by
      intro request member
      rw [trace]
      exact List.mem_append_left _ (authority.travelling request member)
    intro request member
    rw [World.travelling, frame.responder] at member
    cases transition with
    | post | pollSend | foreignSend | collide | fail | issue | loadResponse | ignore | answer =>
        exact old request member
    | push parent | pushLast parent =>
        simp only [← List.append_assoc, List.mem_append, List.mem_singleton] at member
        rcases member with before | rfl
        · exact old request (List.mem_append.mpr before)
        · simp
  case admitted =>
    intro requestId parent found
    rw [frame.responder] at found
    obtain ⟨service, view, request, admitted, rest⟩ := authority.admitted requestId parent found
    refine ⟨service, view, request, ?_, rest⟩
    rw [trace, admission_append fun event member => ?_, admitted]
    have sender := own event member
    cases event <;> first | rfl | cases sender
  case created =>
    intro request member
    rw [frame.responder] at member
    obtain ⟨datagram, made⟩ := authority.created request member
    exact ⟨datagram, by rw [trace]; exact List.mem_append_left _ made⟩
  case events =>
    rw [trace]
    refine Trace.every_append authority.events fun before event member => ?_
    have sender := own event member
    cases event <;> trivial

theorem Admitted.append {trace events : List Event} {requestId : Nat}
    {parent : ResponderInflight} (admitted : Admitted trace requestId parent)
    (undecided : ∀ event ∈ events, event.resolved? = none) :
    Admitted (trace ++ events) requestId parent := by
  obtain ⟨service, view, request, last, rest⟩ := admitted
  exact ⟨service, view, request, by rw [admission_append undecided, last], rest⟩

/-- The decision about a parent that is not in flight leaves the others alone. -/
theorem Admitted.resolved {trace : List Event} {requestId : Nat} {parent : ResponderInflight}
    (admitted : Admitted trace requestId parent) {service : QpService} {view : WorkerQpView}
    {request : RequestDatagram} (other : request.parentRequestId ≠ requestId) :
    Admitted (trace ++ [.resolved service view request]) requestId parent := by
  obtain ⟨named, namedView, first, last, rest⟩ := admitted
  exact ⟨named, namedView, first, by rw [admission_concat]; simp [other, last], rest⟩

/-- Storing a parent with the target and the length of an admitted one. -/
theorem admitted_update {inflight : Nat → Option ResponderInflight} {trace : List Event}
    (admitted : ∀ requestId parent, inflight requestId = some parent →
      Admitted trace requestId parent)
    {requestId other : Nat} {parent updated stored : ResponderInflight}
    (found : inflight requestId = some parent)
    (storedAt : Function.update inflight requestId (some updated) other = some stored)
    (target : updated.targetDaemonAddress = parent.targetDaemonAddress)
    (total : updated.parentTotalLength = parent.parentTotalLength) :
    Admitted trace other stored := by
  by_cases same : other = requestId
  · subst same
    rw [Function.update_self] at storedAt
    injection storedAt with storedAt
    subst storedAt
    obtain ⟨service, view, request, last, resolved, length⟩ := admitted _ _ found
    exact ⟨service, view, request, last, by rw [target]; exact resolved,
      by rw [total]; exact length⟩
  · rw [Function.update_of_ne same] at storedAt
    exact admitted other stored storedAt

/-- A payload that passes the checks lies inside its parent. -/
theorem validPayload_inside {request : RequestDatagram} {parent : ResponderInflight}
    (valid : validPayload request parent = true) (nonzero : parent.payloadCount ≠ 0) :
    request.payloadLength ≠ 0 ∧
      request.payloadOffset + request.payloadLength ≤ parent.parentTotalLength := by
  simp only [validPayload, decide_eq_true_eq] at valid
  obtain ⟨-, -, -, -, -, -, -, -, zero | ⟨-, -, -, -, nonempty, start, fits⟩⟩ := valid
  · exact absurd zero.1 nonzero
  · omega

/-- What is made of a payload that passes the checks of its parent. -/
theorem Authority.justified (authority : Authority world) {request : RequestDatagram}
    {parent : ResponderInflight}
    (pending : world.responder.pendingRequest = some request)
    (found : world.responder.responderInflight request.parentRequestId = some parent)
    (valid : validPayload request parent = true) (nonzero : parent.payloadCount ≠ 0) :
    Justified world.trace
      (.disposed request
        (.backendRequest (backendRequestOf request parent.targetDaemonAddress))) := by
  obtain ⟨nonempty, inside⟩ := validPayload_inside valid nonzero
  obtain ⟨service, view, first, last, resolved, total⟩ := authority.admitted _ _ found
  have sent := authority.travelling request (by simp [World.travelling, pending])
  refine ⟨⟨service, view, first, _, last, resolved, rfl, ?_⟩,
    authority.source sent nonempty rfl⟩
  rw [total]
  exact inside

theorem Authority.responder (authority : Authority world)
    (transition : ResponderTransition permitted world next) : Authority next := by
  have accounted := authority.accounted.transition (.inr transition)
  obtain ⟨before, travelling, admitted, created, events⟩ := authority
  have old : ∀ {extra : List Event} {request : BackendRequest},
      request ∈ world.responder.pendingBackendRequests →
      ∃ datagram, .disposed datagram (.backendRequest request) ∈ world.trace ++ extra :=
    fun member => (created _ member).imp fun _ made => List.mem_append_left _ made
  have carried : ∀ {extra : List Event} {request : RequestDatagram},
      request ∈ world.travelling → .sent request ∈ world.trace ++ extra :=
    fun member => List.mem_append_left _ (travelling _ member)
  cases transition with
  | receiveQueue | dropOrder => exact ⟨accounted, travelling, admitted, created, events⟩
  | loadRequest request rest idle queued =>
      refine ⟨accounted, ?_, admitted, created, events⟩
      simpa [World.travelling, idle, queued] using travelling
  | pollReceive | foreignReceive | popUnknown | deliver =>
      refine ⟨accounted, fun request member => carried member, fun requestId parent found => ?_,
        fun request member => old member, Trace.every_concat.mpr ⟨events, trivial⟩⟩
      exact (admitted requestId parent found).append (by simp)
  | take request rest queued =>
      refine ⟨accounted, fun other member => carried ?_, fun requestId parent found => ?_,
        fun request member => old member, Trace.every_concat.mpr ⟨events, trivial⟩⟩
      · simp only [World.travelling, queued, List.mem_append, List.mem_cons] at member ⊢
        exact member.imp_right .inr
      · exact (admitted requestId parent found).append (by simp)
  | reject start request result disposal resolution pending reason =>
      refine ⟨accounted, fun other member => ?_, fun requestId parent found => ?_,
        fun other member => ?_, ?_⟩
      · rw [List.append_assoc]
        exact carried (by simp_all [World.travelling])
      · rw [List.append_assoc]
        cases reason with
        | target | first => exact (admitted requestId parent found).append (by simp)
        | access service view status addressed absent =>
            have other : request.parentRequestId ≠ requestId := by
              rintro rfl
              rw [absent] at found
              cases found
            have after : Admitted (world.trace ++ [.resolved service view request] ++
                [.disposed request .accessError, .responded
                  { parentRequestId := request.parentRequestId
                    result := .remoteAccessError }]) requestId parent :=
              ((admitted requestId parent found).resolved other).append (by simp)
            simpa using after
      · rw [List.append_assoc]
        exact old member
      · rw [List.append_assoc]
        refine Trace.every_append events fun before => ?_
        cases reason <;> simp [Justified]
  | admitted service view request target receive receiveQueue pending addressed absent valid
      resolved =>
      refine ⟨accounted, fun other member => carried member, fun requestId parent found => ?_,
        fun other member => old member, Trace.every_concat.mpr ⟨events, trivial⟩⟩
      dsimp only at found
      by_cases same : requestId = request.parentRequestId
      · subst same
        rw [Function.update_self] at found
        injection found with stored
        subst stored
        exact ⟨service, view, request, by rw [admission_concat]; simp, resolved, rfl⟩
      · rw [Function.update_of_ne same] at found
        exact (admitted requestId parent found).resolved (Ne.symm same)
  | invalidPayload request parent pending addressed found =>
      refine ⟨accounted, fun other member => carried member, fun requestId stored storedAt => ?_,
        fun other member => old member, Trace.every_concat.mpr ⟨events, trivial⟩⟩
      exact (admitted_update admitted found storedAt rfl rfl).append (by simp)
  | zeroPayload request parent consumed receiveQueue pending found =>
      refine ⟨accounted, fun other member => carried ?_, fun requestId stored storedAt => ?_,
        fun other member => old member, Trace.every_concat.mpr ⟨events, trivial⟩⟩
      · simp_all [World.travelling]
      · exact (admitted_update admitted found storedAt rfl rfl).append (by simp)
  | accept request parent consumed receiveQueue pending found valid nonzero =>
      refine ⟨accounted, fun other member => carried ?_, fun requestId stored storedAt => ?_,
        fun other member => ?_, Trace.every_concat.mpr ⟨events, ?_⟩⟩
      · simp_all [World.travelling]
      · exact (admitted_update admitted found storedAt rfl rfl).append (by simp)
      · rcases List.mem_append.mp member with member | member
        · exact old member
        · rw [List.mem_singleton.mp member]
          exact ⟨request, by simp⟩
      · exact Authority.justified ⟨before, travelling, admitted, created, events⟩ pending found
          valid nonzero
  | flush count =>
      refine ⟨accounted, fun other member => carried member, fun requestId parent found => ?_,
        fun other member => old (List.mem_of_mem_drop member),
        Trace.every_append_after events fun earlier event member => ?_⟩
      · refine (admitted requestId parent found).append fun event member => ?_
        obtain ⟨request, -, rfl⟩ := List.mem_map.mp member
        rfl
      · obtain ⟨request, inside, rfl⟩ := List.mem_map.mp member
        exact old (List.mem_of_mem_take inside)
  | pop start completion earlier parent sameTrace found =>
      refine ⟨accounted, fun other member => carried member, fun requestId stored storedAt => ?_,
        fun other member => old member, Trace.every_concat.mpr ⟨events, trivial⟩⟩
      have kept : (parent.record completion).targetDaemonAddress = parent.targetDaemonAddress ∧
          (parent.record completion).parentTotalLength = parent.parentTotalLength := by
        unfold ResponderInflight.record
        split <;> exact ⟨rfl, rfl⟩
      exact (admitted_update admitted found storedAt kept.1 kept.2).append
        (by simp)
  | retire view requestId order parent receive head found =>
      refine ⟨accounted, fun other member => ?_, fun other stored storedAt => ?_,
        fun other member => ?_, ?_⟩
      · rw [List.append_assoc]
        exact carried member
      · rw [List.append_assoc]
        refine (admitted other stored ?_).append ?_
        · dsimp only at storedAt
          by_cases same : other = requestId
          · rw [same, Function.update_self] at storedAt
            cases storedAt
          · rwa [Function.update_of_ne same] at storedAt
        · cases receive <;> simp
      · rw [List.append_assoc]
        exact old member
      · rw [List.append_assoc]
        refine Trace.every_append events fun before => ?_
        cases receive <;> simp [Justified]

theorem Authority.transition (authority : Authority world)
    (transition : Transition permitted world next) : Authority next :=
  transition.elim authority.sender authority.responder

end Transition

theorem Authority.initial (configuration : World.Configuration) :
    Authority (World.initial configuration) :=
  ⟨initial_accounted configuration, nofun, nofun, nofun, Trace.every_nil⟩

theorem Authority.call {world : World} (authority : Authority world) {service : QpService}
    (reachable : service.Reachable) (call : Call) :
    Authority (world.step (call.action service)) :=
  (Daemon.call_transitions reachable world call).invariant
    (fun _ _ transition authority => authority.transition transition) authority

theorem run_authority (catalog : List DeviceDescriptor) (configuration : World.Configuration)
    (actions : List DaemonAction) :
    let daemon := Execution.run Daemon.step (.create catalog configuration) actions
    daemon.service.Reachable ∧ Authority daemon.world := by
  have kept : ∀ (service : QpService) (event : QpService.Event), service.Valid → True →
      True → True := fun _ _ _ _ _ => trivial
  have preserved : ∀ (world : World) (service : QpService) (call : Call), service.Reachable →
      True → Authority world → Authority (world.step (call.action service)) :=
    fun _ _ call reachable _ authority => authority.call reachable call
  have started : Authority (Daemon.create catalog configuration).world :=
    .initial configuration
  obtain ⟨reachable, -, authority⟩ := Daemon.run_invariant kept preserved ⟨catalog, [], rfl⟩
    trivial started fun _ _ => trivial
  exact ⟨reachable, authority⟩

/-! ## Authorised ranges -/

theorem mem_of_admission {requestId : Nat} {trace : List Event} {service : QpService}
    {view : WorkerQpView} {request : RequestDatagram}
    (last : admission requestId trace = some (service, view, request)) :
    .resolved service view request ∈ trace := by
  induction trace using List.reverseRecOn with
  | nil => cases last
  | append_singleton trace event induction =>
      rw [admission_concat] at last
      split at last
      · split at last
        · cases last
          exact List.mem_append_right _ (List.mem_singleton.mpr rfl)
        · exact List.mem_append_left _ (induction last)
      · exact List.mem_append_left _ (induction last)

/-- The target range lies in one region that was live for the responder's session and
protection domain when its parent was admitted, with remote write access and the
parent's key, and that covered the client range of the whole parent. -/
def TargetAuthorised (qpNum : Nat) (trace : List Event) (request : BackendRequest) : Prop :=
  ∃ service view first identity mr,
    admission request.parentRequestId trace = some (service, view, first) ∧
    service.workerQpView qpNum = .ok view ∧
    service.mrs.resolve view.sessionId identity = some mr ∧ mr.pdIdentity = view.pdIdentity ∧
    mr.rkey = first.rkey ∧ mr.access &&& QpService.accessRemoteWrite ≠ 0 ∧
    mr.clientAddress ≤ first.remoteAddress ∧
    first.remoteAddress + first.parentTotalLength ≤ mr.clientAddress + mr.length ∧
    mr.daemonAddress ≤ request.targetDaemonAddress ∧
    request.targetDaemonAddress + request.payloadLength ≤ mr.daemonAddress + mr.length

/-- The source range lies in one region that was live for the requester's session and
protection domain, with the key of an entry of the WR, when the WR was picked up. -/
def SourceAuthorised (qpNum : Nat) (trace : List Event) (request : BackendRequest) : Prop :=
  ∃ service view wqe parent identity mr,
    .issued service view wqe parent ∈ trace ∧
    parent.parentRequestId = request.parentRequestId ∧
    service.workerQpView qpNum = .ok view ∧
    service.mrs.resolve view.sessionId identity = some mr ∧ mr.pdIdentity = view.pdIdentity ∧
    (∃ sge ∈ wqe.sgeList, mr.lkey = sge.lkey) ∧
    mr.daemonAddress ≤ request.sourceDaemonAddress ∧
    request.sourceDaemonAddress + request.payloadLength ≤ mr.daemonAddress + mr.length

/-- Every request made for the backend is authorised, and the backend only gets requests
that were made. -/
structure OnlyAuthorised (configuration : World.Configuration) (world : World) : Prop where
  made : ∀ before datagram request after,
    world.trace = before ++ .disposed datagram (.backendRequest request) :: after →
    TargetAuthorised configuration.responderQpNum before request ∧
      SourceAuthorised configuration.requesterQpNum before request
  pending : ∀ request ∈ world.responder.pendingBackendRequests,
    ∃ datagram, .disposed datagram (.backendRequest request) ∈ world.trace
  accepted : ∀ before request after, world.trace = before ++ .accepted request :: after →
    ∃ datagram, .disposed datagram (.backendRequest request) ∈ before

section Authorised

variable {configuration : World.Configuration}

/-- A control state that a call of the queue pair with this number was made in. -/
structure LookedUp (qpNum : Nat) (service : QpService) (view : WorkerQpView) : Prop where
  valid : service.Valid
  mapped : service.MrsMapped
  view : service.workerQpView qpNum = .ok view

abbrev NamesLookedUp (configuration : World.Configuration) : Event → Prop :=
  Event.Names (LookedUp configuration.requesterQpNum) (LookedUp configuration.responderQpNum)

theorem TargetResolved.authorised {trace : List Event} {request : BackendRequest}
    (named : ∀ event ∈ trace, NamesLookedUp configuration event)
    (resolved : TargetResolved trace request) :
    TargetAuthorised configuration.responderQpNum trace request := by
  obtain ⟨service, view, first, target, last, found, address, inside⟩ := resolved
  have looked : LookedUp configuration.responderQpNum service view :=
    named _ (mem_of_admission last)
  obtain ⟨mr, grants⟩ := QpService.resolveKey_grants looked.valid found
  obtain ⟨start, stop, below⟩ := grants.daemon_range looked.valid looked.mapped
  obtain ⟨identity, live⟩ := grants.live
  have unwrapped : request.targetDaemonAddress = target + request.payloadOffset := by
    rw [address, Nat.mod_eq_of_lt (by omega)]
  exact ⟨service, view, first, identity, mr, last, looked.view, live, grants.pdIdentity,
    grants.key, grants.access rfl, grants.start, grants.stop, by omega, by omega⟩

theorem SourceResolved.authorised {trace : List Event} {request : BackendRequest}
    (named : ∀ event ∈ trace, NamesLookedUp configuration event)
    (resolved : SourceResolved trace request) :
    SourceAuthorised configuration.requesterQpNum trace request := by
  obtain ⟨service, view, wqe, parent, issued, parentId, sge, entry, source, offset, found,
    address, inside⟩ := resolved
  have looked : LookedUp configuration.requesterQpNum service view := named _ issued
  obtain ⟨mr, grants⟩ := QpService.resolveKey_grants looked.valid found
  obtain ⟨start, stop, below⟩ := grants.daemon_range looked.valid looked.mapped
  obtain ⟨identity, live⟩ := grants.live
  have unwrapped : request.sourceDaemonAddress = source + offset := by
    rw [address, Nat.mod_eq_of_lt (by omega)]
  exact ⟨service, view, wqe, parent, identity, mr, issued, parentId, looked.view, live,
    grants.pdIdentity, ⟨sge, entry, grants.key⟩, by omega, by omega⟩

theorem Authority.onlyAuthorised {world : World} (authority : Authority world)
    (named : ∀ event ∈ world.trace, NamesLookedUp configuration event) :
    OnlyAuthorised configuration world where
  made := by
    intro before datagram request after split
    obtain ⟨target, source⟩ := authority.events before _ after split
    have earlier : ∀ event ∈ before, NamesLookedUp configuration event := by
      intro event member
      exact named event (by rw [split]; exact List.mem_append_left _ member)
    exact ⟨target.authorised earlier, source.authorised earlier⟩
  pending := authority.created
  accepted := fun before _ after split => authority.events before _ after split

/-- What a run of the daemon keeps: the requests are made of resolved ranges, and the
events name control states with mapped regions. -/
structure Traced (configuration : World.Configuration) (world : World) : Prop where
  authority : Authority world
  fixed : Fixed (.initial configuration) world
  named : ∀ event ∈ world.trace, NamesLookedUp configuration event

theorem Traced.initial (configuration : World.Configuration) :
    Traced configuration (.initial configuration) :=
  ⟨.initial configuration, ⟨rfl, rfl, rfl, rfl⟩, List.forall_mem_nil _⟩

theorem Traced.call {world : World} (traced : Traced configuration world)
    {service : QpService} (reachable : service.Reachable) (mapped : service.MrsMapped)
    (call : Call) : Traced configuration (world.step (call.action service)) := by
  have requesterQpNum := traced.fixed.requesterQpNum
  have responderQpNum := traced.fixed.responderQpNum
  have names : Extends (NamesLookedUp configuration) world
      (world.step (call.action service)) := by
    refine step_names call (fun view found => ?_) (fun view found => ?_)
    · exact ⟨reachable.valid, mapped, by rwa [requesterQpNum] at found⟩
    · exact ⟨reachable.valid, mapped, by rwa [responderQpNum] at found⟩
  refine ⟨?_, ?_, ?_⟩
  · exact traced.authority.call reachable call
  · exact (Daemon.call_transitions reachable world call).invariant
      (fun _ _ transition fixed => fixed.transition transition) traced.fixed
  · obtain ⟨events, trace, each⟩ := names
    intro event member
    rw [trace] at member
    exact (List.mem_append.mp member).elim (traced.named event) (each event)

/-- In every run of the daemon, with requests of any session between the calls of the
workers, only authorised memory is read and written. -/
theorem only_authorised_memory {catalog : List DeviceDescriptor}
    {actions : List DaemonAction}
    (mapped : ∀ event, .control event ∈ actions → event.MapsBelow) :
    OnlyAuthorised configuration
      (Execution.run Daemon.step (.create catalog configuration) actions).world := by
  have kept : ∀ (service : QpService) (event : QpService.Event), service.Valid →
      event.MapsBelow → service.MrsMapped → (service.step event).MrsMapped :=
    fun service event valid maps mapped => (QpService.step_mrs valid event).mapped maps mapped
  have preserved : ∀ (world : World) (service : QpService) (call : Call), service.Reachable →
      service.MrsMapped → Traced configuration world →
      Traced configuration (world.step (call.action service)) :=
    fun world service call reachable mapped traced => traced.call reachable mapped call
  have empty : (Daemon.create catalog configuration).service.MrsMapped := nofun
  have started : Traced configuration (Daemon.create catalog configuration).world :=
    .initial configuration
  obtain ⟨-, -, traced⟩ := Daemon.run_invariant kept preserved ⟨catalog, [], rfl⟩ empty
    started mapped
  exact traced.authority.onlyAuthorised traced.named

/-- The requests that connect the two queue pairs of `Loopback`, to a memory backend that
maps small allocations only. -/
def smallHost : Environment :=
  { Loopback.host with
    openMemory := fun memory =>
      if memory.allocationSize ≤ 2 ^ 32 then .ok ⟨memory.gpuUuid, 8192⟩ else .error .einval }

def connected : List DaemonAction :=
  ([{ method := 2, objectIdentity := 1 },
      { method := 4, objectIdentity := Loopback.contextIdentity },
      { method := 8, objectIdentity := Loopback.contextIdentity, length := 4 },
      Loopback.registerMr, Loopback.createQp, Loopback.createQp, Loopback.readyQp 0,
      Loopback.readyQp 1, Loopback.connectQp 0 2, Loopback.connectQp 1 1] :
    List ControlRequest).map fun request => .control (.request 1 request smallHost)

theorem connected_mapsBelow {event : QpService.Event} (member : .control event ∈ connected) :
    event.MapsBelow := by
  obtain ⟨request, -, same⟩ := List.mem_map.mp member
  injection same with same
  rw [← same]
  intro memory mapping opened
  simp only [smallHost] at opened
  split at opened
  · injection opened with opened
    rw [← opened]
    dsimp only
    omega
  · cases opened

/-- The first 8 bytes of a write of 12 and 4 bytes, handed to the backend. -/
def firstPayload : List DaemonAction :=
  connected ++
    [.call (.postSend Loopback.twoSegments), .call .trySend, .call .tryRequest,
      .call (.tryFlushBackendRequests 1)]

theorem only_authorised_memory_firstPayload :
    (Execution.run Daemon.step (.create [⟨1, []⟩] Loopback.configuration)
      firstPayload).world.accepted.length = 1 ∧
    OnlyAuthorised Loopback.configuration
      (Execution.run Daemon.step (.create [⟨1, []⟩] Loopback.configuration)
        firstPayload).world := by
  refine ⟨by decide +kernel, only_authorised_memory fun event member => ?_⟩
  rcases List.mem_append.mp member with member | member
  · exact connected_mapsBelow member
  · simp at member

end Authorised

end Ugdr.Worker
