import Ugdr.Worker.Authority

/-! # Deregistration under work in flight

Work requests hold no reference to the memory regions they were resolved to, so a
region can be deregistered while its addresses are still on their way to the
backend. From then on nothing is resolved to it any more.
-/

namespace Ugdr.Worker

open Ugdr.Queue Ugdr.Control
open Ugdr.Control.QpService (WorkerQpView)

/-- The trace has grown by events that resolve nothing to the region `mr`, and a request
made for the backend since then gets an address of `mr` only from a resolution in
`before`. -/
structure ForgottenSince (mr : MrRecord) (before : List Event) (world : World) : Prop where
  later : ∃ events, world.trace = before ++ events ∧
    (∀ service view wqe parent, .issued service view wqe parent ∈ events →
      ∀ sge ∈ wqe.sgeList, sge.lkey ≠ mr.lkey) ∧
    (∀ service view first target, .resolved service view first ∈ events →
      service.resolveRkey view.sessionId view.pdIdentity first.rkey first.remoteAddress
        first.parentTotalLength = .ok target → first.rkey ≠ mr.rkey)
  target : ∀ earlier datagram request rest,
    world.trace = before ++ earlier ++ .disposed datagram (.backendRequest request) :: rest →
    ∃ service view first target,
      admission request.parentRequestId (before ++ earlier) = some (service, view, first) ∧
      service.resolveRkey view.sessionId view.pdIdentity first.rkey first.remoteAddress
        first.parentTotalLength = .ok target ∧
      request.targetDaemonAddress = (target + request.payloadOffset) % 2 ^ 64 ∧
      (first.rkey = mr.rkey → .resolved service view first ∈ before)
  source : ∀ earlier datagram request rest,
    world.trace = before ++ earlier ++ .disposed datagram (.backendRequest request) :: rest →
    ∃ service view wqe parent, parent.parentRequestId = request.parentRequestId ∧
      .issued service view wqe parent ∈ before ++ earlier ∧
      ∃ sge ∈ wqe.sgeList, ∃ source offset,
        service.resolveLkey view.sessionId view.pdIdentity sge.lkey sge.address sge.length =
          .ok source ∧
        request.sourceDaemonAddress = (source + offset) % 2 ^ 64 ∧
        (sge.lkey = mr.lkey → .issued service view wqe parent ∈ before)

/-- A control state without the region. -/
structure Without (mr : MrRecord) (service : QpService) : Prop where
  valid : service.Valid
  retired : service.KeysRetired mr.lkey mr.rkey

abbrev NamesWithout (mr : MrRecord) : Event → Prop :=
  Event.Names (fun service _ => Without mr service) (fun service _ => Without mr service)

section Forgotten

variable {mr : MrRecord}

/-- A lookup that succeeds without the region is not one of its keys. -/
theorem Without.resolved_ne {service : QpService} (without : Without mr service)
    {session pdIdentity key address length : Nat} {remote : Bool} {target : Nat}
    (resolved : service.resolveKey session pdIdentity key address length remote = .ok target) :
    key ≠ if remote then mr.rkey else mr.lkey := by
  obtain ⟨found, grants⟩ := QpService.resolveKey_grants without.valid resolved
  obtain ⟨identity, live⟩ := grants.live
  have unused := without.retired.unused _ (QpService.mem_mrs without.valid live)
  rw [← grants.key]
  cases remote with
  | false => exact unused.1
  | true => exact unused.2

theorem Authority.forgottenSince {world : World} (authority : Authority world)
    {before events : List Event} (trace : world.trace = before ++ events)
    (named : ∀ event ∈ events, NamesWithout mr event) : ForgottenSince mr before world := by
  have issuedLater : ∀ service view wqe parent, .issued service view wqe parent ∈ events →
      ∀ sge ∈ wqe.sgeList, sge.lkey ≠ mr.lkey := by
    intro service view wqe parent member sge entry
    have without : Without mr service := named _ member
    have segments := authority.accounted.segments service view wqe parent
      (by rw [trace]; exact List.mem_append_right _ member)
    obtain ⟨segment, -, resolved, -⟩ := exists_mem_of_forall₂ segments.flip sge entry
    exact without.resolved_ne resolved
  have resolvedLater : ∀ service view first target, .resolved service view first ∈ events →
      service.resolveRkey view.sessionId view.pdIdentity first.rkey first.remoteAddress
        first.parentTotalLength = .ok target → first.rkey ≠ mr.rkey := by
    intro service view first target member resolved
    have without : Without mr service := named _ member
    exact without.resolved_ne resolved
  have inside : ∀ {earlier rest : List Event} {event : Event},
      world.trace = before ++ earlier ++ event :: rest → ∀ other ∈ earlier, other ∈ events := by
    intro earlier rest event split other member
    rw [trace, List.append_assoc, List.append_cancel_left_eq] at split
    rw [split]
    exact List.mem_append_left _ member
  refine ⟨⟨events, trace, issuedLater, resolvedLater⟩, ?_, ?_⟩
  · intro earlier datagram request rest split
    obtain ⟨⟨service, view, first, target, last, resolved, address, -⟩, -⟩ :=
      authority.events _ _ rest split
    refine ⟨service, view, first, target, last, resolved, address, fun same => ?_⟩
    rcases List.mem_append.mp (mem_of_admission last) with early | late
    · exact early
    · exact absurd same (resolvedLater _ _ _ _ (inside split _ late) resolved)
  · intro earlier datagram request rest split
    obtain ⟨-, service, view, wqe, parent, issued, parentId, sge, entry, source, offset, resolved,
      address, -⟩ := authority.events _ _ rest split
    refine ⟨service, view, wqe, parent, parentId, issued, sge, entry, source, offset, resolved,
      address, fun same => ?_⟩
    rcases List.mem_append.mp issued with early | late
    · exact early
    · exact absurd same (issuedLater _ _ _ _ (inside split _ late) sge entry)

end Forgotten

/-- What a run keeps after the region was taken out. -/
structure Forgetting (mr : MrRecord) (before : List Event) (world : World) : Prop where
  authority : Authority world
  extended : ∃ events, world.trace = before ++ events ∧ ∀ event ∈ events, NamesWithout mr event

theorem Forgetting.call {mr : MrRecord} {before : List Event} {world : World}
    (forgetting : Forgetting mr before world) {service : QpService}
    (reachable : service.Reachable) (retired : service.KeysRetired mr.lkey mr.rkey)
    (call : Call) : Forgetting mr before (world.step (call.action service)) := by
  refine ⟨forgetting.authority.call reachable call, ?_⟩
  obtain ⟨events, trace, named⟩ := forgetting.extended
  obtain ⟨more, grown, each⟩ : Extends (NamesWithout mr) world
      (world.step (call.action service)) :=
    step_names call (fun _ _ => ⟨reachable.valid, retired⟩)
      (fun _ _ => ⟨reachable.valid, retired⟩)
  refine ⟨events ++ more, by rw [grown, trace, List.append_assoc], fun event member => ?_⟩
  exact (List.mem_append.mp member).elim (named event) (each event)

/-- In every run of the daemon: a deregistration of a live region answers what closing
the mapping answers, whatever is in flight, and once it has succeeded nothing is
resolved to the region any more. -/
theorem deregistered_region_forgotten {catalog : List DeviceDescriptor}
    {configuration : World.Configuration} {before : List DaemonAction}
    {session : OwnerSessionId} {request : ControlRequest} (environment : Environment)
    (after : List DaemonAction) {mr : MrRecord} (method : request.method = 7)
    (shape : emptyShape request = true)
    (live : (Execution.run Daemon.step (.create catalog configuration)
      before).service.mrs.resolve session request.objectIdentity = some mr) :
    let daemon := Execution.run Daemon.step (.create catalog configuration) before
    (QpService.handle daemon.service session request environment).1.status =
        environment.closeMemory mr.mapping ∧
      (environment.closeMemory mr.mapping = none →
        ForgottenSince mr daemon.world.trace
          (Execution.run Daemon.step daemon
            (.control (.request session request environment) :: after)).world) := by
  obtain ⟨reachable, authority⟩ := run_authority catalog configuration before
  intro daemon
  refine ⟨QpService.deregisterMr_answer reachable.valid method shape live, fun closed => ?_⟩
  have kept : ∀ (service : QpService) (event : QpService.Event), service.Valid → True →
      service.KeysRetired mr.lkey mr.rkey →
      (service.step event).KeysRetired mr.lkey mr.rkey :=
    fun service event valid _ retired => (QpService.step_mrs valid event).keysRetired retired
  have preserved : ∀ (world : World) (service : QpService) (call : Call), service.Reachable →
      service.KeysRetired mr.lkey mr.rkey → Forgetting mr daemon.world.trace world →
      Forgetting mr daemon.world.trace (world.step (call.action service)) :=
    fun world service call reachable retired forgetting =>
      forgetting.call reachable retired call
  have retired : (daemon.step (.control (.request session request
      environment))).service.KeysRetired mr.lkey mr.rkey :=
    QpService.deregister_retires reachable method shape live closed
  have started : Forgetting mr daemon.world.trace
      (daemon.step (.control (.request session request environment))).world :=
    ⟨authority, [], (List.append_nil _).symm, List.forall_mem_nil _⟩
  have permitted : ∀ event, .control event ∈ after → True := fun _ _ => trivial
  obtain ⟨-, -, final⟩ := Daemon.run_invariant kept preserved
    (reachable.step (.request session request environment)) retired started permitted
  obtain ⟨events, trace, named⟩ := final.extended
  exact final.authority.forgottenSince trace named

/-! ## A region deregistered under a write -/

def deregisterMr : ControlRequest :=
  { method := 7, objectIdentity := packIdentity ObjectType.mr.code 1 0 }

/-- The first payload of a write waits for the backend. -/
def waitingPayload : List DaemonAction :=
  connected ++
    [.call (.postSend Loopback.twoSegments), .call .trySend, .call .tryRequest]

def waitingDaemon : Daemon :=
  Execution.run Daemon.step (.create [⟨1, []⟩] Loopback.configuration) waitingPayload

def deregisteredDaemon : Daemon :=
  waitingDaemon.step (.control (.request 1 deregisterMr smallHost))

/-- The region is deregistered although a parent that was resolved to it is in flight on
both sides, and the backend is then handed a request with addresses inside the closed
mapping of 64 bytes at 8192. -/
theorem deregistered_under_work :
    (waitingDaemon.world.requester.requesterInflight (Loopback.requestId 1)).isSome = true ∧
      (waitingDaemon.world.responder.responderInflight (Loopback.requestId 1)).isSome = true ∧
      (QpService.handle waitingDaemon.service 1 deregisterMr smallHost).1.status = none ∧
      deregisteredDaemon.service.mrs.entries.length = 0 ∧
      (deregisteredDaemon.step (.call (.tryFlushBackendRequests 1))).world.accepted.map
          (fun request => (request.sourceDaemonAddress, request.targetDaemonAddress)) =
        [(8192, 8192)] := by
  decide +kernel

theorem deregistered_region_forgotten_waiting :
    ∃ mr, waitingDaemon.service.mrs.resolve 1 deregisterMr.objectIdentity = some mr ∧
      (QpService.handle waitingDaemon.service 1 deregisterMr smallHost).1.status = none ∧
      ForgottenSince mr waitingDaemon.world.trace
        (Execution.run Daemon.step waitingDaemon
          [.control (.request 1 deregisterMr smallHost),
            .call (.tryFlushBackendRequests 1)]).world := by
  have resolves : (waitingDaemon.service.mrs.resolve 1 deregisterMr.objectIdentity).isSome =
      true := by
    decide +kernel
  obtain ⟨mr, live⟩ := Option.isSome_iff_exists.mp resolves
  obtain ⟨answer, forgotten⟩ :=
    deregistered_region_forgotten smallHost [.call (.tryFlushBackendRequests 1)] rfl
      (by decide) live
  exact ⟨mr, live, answer, forgotten rfl⟩

end Ugdr.Worker
