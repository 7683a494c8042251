import Ugdr.Worker.CopyInvariant
import Ugdr.Worker.SendCompletion

/-! # Success only after the copy

A parent is answered with success only when the backend has accepted all of its
requests and has completed each of them once, with success. A completion that is
delivered again after the request id has come back counts for the wrong parent.
-/

namespace Ugdr.Worker

open Ugdr.Queue Ugdr.Control
open Ugdr.Control.QpService (WorkerQpView)

variable {permitted : World → Event → Prop} {world next : World}

/-! ## Runs -/

theorem NoPrematureSuccess.transition (every : NoPrematureSuccess world.trace)
    (agreed : Agreed world) (copies : Copies world)
    (transition : Transition permitted world next) : NoPrematureSuccess next.trace := by
  rcases transition with transition | transition
  · cases transition with
    | collide | loadResponse => exact every
    | post | pollSend | foreignSend | fail | issue | push =>
        exact Trace.every_concat.mpr ⟨every, .of_silent rfl⟩
    | ignore =>
        exact Trace.every_concat.mpr ⟨every, by rintro _ ⟨⟩, by rintro _ _ ⟨⟩, by rintro _ _ ⟨⟩⟩
    | pushLast parent pending =>
        obtain ⟨-, wqe, rest, items, -⟩ := agreed.accounted.queue.busy parent pending
        rw [items]
        exact Trace.every_concat.mpr
          ⟨Trace.every_concat.mpr ⟨every, .of_silent rfl⟩, .of_silent rfl⟩
    | answer response inflight answer pending =>
        refine Trace.every_concat.mpr ⟨every, by rintro _ ⟨⟩, by rintro _ _ ⟨⟩, ?_⟩
        rintro _ _ ⟨⟩ success
        exact copies.returning response (by simp [World.returning, pending]) success
  · cases transition with
    | receiveQueue | loadRequest | dropOrder => exact every
    | pollReceive | foreignReceive | admitted | invalidPayload | zeroPayload | accept | popUnknown
    | pop | deliver | take => exact Trace.every_concat.mpr ⟨every, .of_silent rfl⟩
    | flush accepted =>
        refine Trace.every_append every fun before event member => ?_
        obtain ⟨request, -, rfl⟩ := List.mem_map.mp member
        exact .of_silent rfl
    | reject start request result disposal resolution pending reason =>
        refine Trace.every_concat.mpr ⟨Trace.every_append every ?_, ?_, by rintro _ _ ⟨⟩,
          by rintro _ _ ⟨⟩⟩
        · intro before event member
          cases reason with
          | target | first =>
              cases List.mem_singleton.mp member
              exact .of_silent rfl
          | access =>
              rcases List.mem_cons.mp member with rfl | member
              · exact .of_silent rfl
              · cases List.mem_singleton.mp member
                exact .of_silent rfl
        · rintro response ⟨⟩ success
          cases reason <;> cases success
    | retire view requestId order inflight receive head found submitted terminal receives =>
        obtain ⟨parent, matched⟩ := copies.submitted _ _ found
        have copied := copies.copiedOnce agreed.accounted.stream matched submitted terminal
        have responded : NoPrematureSuccess (world.trace ++
            [.responded { parentRequestId := requestId, result := inflight.result }]) := by
          refine Trace.every_concat.mpr ⟨every, ?_, by rintro _ _ ⟨⟩, by rintro _ _ ⟨⟩⟩
          rintro response ⟨⟩ success
          exact ⟨parent, copied success⟩
        split at receives
        · rename_i success
          subst receives
          refine Trace.every_concat.mpr ⟨responded, by rintro _ ⟨⟩, ?_, by rintro _ _ ⟨⟩⟩
          rintro _ _ ⟨⟩
          rw [progress_concat]
          exact (copied success.1).copied
        · subst receives
          change NoPrematureSuccess (_ ++ [])
          rw [List.append_nil]
          exact responded

/-- Over every run of the two workers and a backend that completes only what it has
accepted since the id was issued, in any order and with any results, nothing reports
success before the copy. -/
theorem no_premature_success {configuration : World.Configuration} {actions : List Action}
    (admissible : Execution.Along World.step (Admissible Serving)
      (World.initial configuration) actions) :
    NoPrematureSuccess
      (Execution.run World.step (World.initial configuration) actions).trace :=
  (@run_invariant _
    (fun world => Agreed world ∧ Copies world ∧ NoPrematureSuccess world.trace)
    (fun _ _ transition ⟨agreed, copies, every⟩ =>
      ⟨agreed.transition (fun _ _ serving => serving.paired) transition,
        copies.transition agreed (fun _ _ serving => serving) transition,
        every.transition agreed copies transition⟩)
    _ ⟨Agreed.initial configuration, ⟨nofun, fun _ => rfl, nofun, nofun, nofun, nofun⟩,
      Trace.every_nil⟩ _ admissible).2.2

instance (world : World) : DecidablePred (Serving world)
  | .issued _ view _ parent =>
      inferInstanceAs (Decidable (view.peerQpNum = world.responder.qpNum ∧
        Quiet world parent.parentRequestId))
  | .popped completion =>
      inferInstanceAs (Decidable (∃ request ∈
        (progress completion.parentRequestId world.trace).accepted,
          request.payloadIndex = completion.payloadIndex))
  | .delivered _ | .taken _ => inferInstanceAs (Decidable False)
  | .posted _ | .failed _ _ | .sent _ | .released _ | .consumed _ _ | .resolved _ _ _
  | .disposed _ _ | .invalidPayload _ | .accepted _ | .responded _ | .received _ _
  | .polledSend _ | .polledReceive _ | .foreignSend _ | .foreignReceive _ =>
      inferInstanceAs (Decidable True)

/-- A write of three payloads that are completed out of order. -/
def copiedWrite : List Action :=
  [.postSend Loopback.twoSegments, .trySend Loopback.service, .tryRequest Loopback.service,
    .trySend Loopback.service, .tryRequest Loopback.service, .trySend Loopback.service,
    .tryRequest Loopback.service, .tryFlushBackendRequests Loopback.service 3,
    .tryBackendCompletions Loopback.service
      [⟨Loopback.requestId 1, 2, .success⟩, ⟨Loopback.requestId 1, 0, .success⟩],
    .tryBackendCompletions Loopback.service [⟨Loopback.requestId 1, 1, .success⟩],
    .tryParentResponse Loopback.service]

theorem no_premature_success_copiedWrite :
    (Execution.run World.step (World.initial Loopback.configuration)
        copiedWrite).transport.responses =
        [{ parentRequestId := Loopback.requestId 1, result := .success }] ∧
      NoPrematureSuccess (Execution.run World.step (World.initial Loopback.configuration)
        copiedWrite).trace := by
  refine ⟨by decide +kernel, no_premature_success (along_admissible ?_ ?_)⟩
  · simp only [copiedWrite]
    exact Loopback.actions_reachable (by simp [Action.service])
  · decide +kernel

/-! ## A stale completion -/

/-- The two workers are alone on the transport and the backend completes only requests
that it has accepted at some time. -/
def CompletesAccepted (world : World) : Event → Prop
  | .popped completion =>
      ∃ request ∈ world.accepted, request.parentRequestId = completion.parentRequestId ∧
        request.payloadIndex = completion.payloadIndex
  | .delivered _ => False
  | .taken _ => False
  | _ => True

instance (world : World) : DecidablePred (CompletesAccepted world)
  | .popped completion =>
      inferInstanceAs (Decidable (∃ request ∈ world.accepted,
        request.parentRequestId = completion.parentRequestId ∧
          request.payloadIndex = completion.payloadIndex))
  | .delivered _ | .taken _ => inferInstanceAs (Decidable False)
  | .issued _ _ _ _ | .posted _ | .failed _ _ | .sent _ | .released _ | .consumed _ _
  | .resolved _ _ _ | .disposed _ _ | .invalidPayload _ | .accepted _ | .responded _
  | .received _ _ | .polledSend _ | .polledReceive _ | .foreignSend _ | .foreignReceive _ =>
      inferInstanceAs (Decidable True)

theorem completesAccepted_restricts : Loopback.RestrictsOthers CompletesAccepted := by
  intro world event popped delivered taken
  cases event with
  | popped completion => exact absurd rfl (popped completion)
  | delivered response => exact absurd rfl (delivered response)
  | taken request => exact absurd rfl (taken request)
  | _ => trivial

namespace Loopback

open Ugdr.Control.Loopback

/-- A write of one payload. -/
def smallWrite : SendWqe where
  header := { opcode := wrRdmaWrite, sgeCount := 1, remoteAddress := 4096, rkey := 2 }
  sges := fun _ => { address := 4096, length := 8, lkey := 1 }
  length_lt := fun _ => eight_lt

def firstCompletion : BackendCompletion := ⟨requestId 1, 0, .success⟩

def smallParent : PendingSend :=
  pendingSendOf requesterView (requestId 1) smallWrite
    { totalLength := 8, segments := [⟨8192, 8⟩], payloadCount := 1 }

def smallDatagram : RequestDatagram :=
  { parentRequestId := requestId 1
    sourceQpNum := 1
    targetQpNum := 2
    remoteAddress := 4096
    rkey := 2
    parentTotalLength := 8
    sourceDaemonAddress := 8192
    payloadLength := 8
    payloadCount := 1 }

def smallRequest : BackendRequest :=
  backendRequestOf smallDatagram 8192

variable (trace : List Event)

/-- The requester waits for the answer to the write. -/
def writing : World :=
  { idle (LoopWorker.followingSequence 1) trace with
    requester :=
      { (idle (LoopWorker.followingSequence 1) trace).requester with
        requesterInflight :=
          Function.update (fun _ => none) (requestId 1) (some smallParent.inflight) } }

def written : World :=
  { writing trace with
    transport := { requestCapacity := 1, responseCapacity := 1, requests := [smallDatagram] } }

/-- The responder keeps the parent, with `terminal` payloads and `pending` requests. -/
def serving (inflight : ResponderInflight) (pending : List BackendRequest) : World :=
  { writing trace with
    responder :=
      { (writing trace).responder with
        responderInflight := Function.update (fun _ => none) (requestId 1) (some inflight)
        responderOrder := [requestId 1]
        pendingBackendRequests := pending } }

def smallInflight : ResponderInflight :=
  (responderInflightOf smallDatagram 8192 none).advance smallDatagram

def writtenEvents : List Event :=
  [.posted smallWrite, .issued service requesterView smallWrite smallParent, .sent smallDatagram,
    .released smallWrite]


theorem resolveLkey_small : service.resolveLkey 1 pdIdentity 1 4096 8 = .ok 8192 := by
  decide +kernel

theorem resolveRkey_small : service.resolveRkey 1 pdIdentity 2 4096 8 = .ok 8192 := by
  decide +kernel

theorem inspectSend_small :
    inspectSend service requesterView 8 smallWrite =
      .ok { totalLength := 8, segments := [⟨8192, 8⟩], payloadCount := 1 } := by
  simp [inspectSend, smallWrite, requesterView, SendWqe.sgeList, gather, Gathered.add,
    resolveLkey_small, wrRdmaWrite]

theorem trySend_small :
    ((idle 1 trace).step (.postSend smallWrite)).step (.trySend service) =
      written (trace ++ writtenEvents) := by
  have loaded : loadSend service requesterView ((idle 1 trace).step (.postSend smallWrite)) =
      .ok
        { idle 1 trace with
          sendQueue := { capacity := 4, items := [smallWrite], peeked := 1 }
          requester :=
            { (idle 1 trace).requester with
              requesterInflight :=
                Function.update (fun _ => none) (requestId 1) (some smallParent.inflight)
              pendingSend := some smallParent }
          trace :=
            trace ++ [.posted smallWrite] ++
              [.issued service requesterView smallWrite smallParent] } := by
    simp [loadSend, World.step, World.postSend, idle, World.initial, configuration, Fifo.produce,
      Fifo.reserve, Fifo.publish, Fifo.peek, LoopWorker.create, inspectSend_small]
    exact ⟨rfl, rfl⟩
  have qpNum : ((idle 1 trace).step (.postSend smallWrite)).requester.qpNum = 1 := rfl
  have free : ((idle 1 trace).step (.postSend smallWrite)).requester.pendingSend = none := rfl
  rw [World.step.eq_def]
  simp only [qpNum, withView, requesterView_eq, trySend, free, loaded, pushPayload]
  simp [smallParent, pendingSendOf, LocalTransport.tryPushRequest, PendingSend.advance,
    PendingSend.finished, idle, World.initial, configuration, Fifo.release, written, writing,
    writtenEvents, LoopWorker.create, smallDatagram, PendingSend.datagram, requesterView,
    smallWrite, wrRdmaWrite, PendingSend.inflight]

def servedEvents : List Event :=
  [.resolved service { requesterView with qpNum := 2, peerQpNum := 1 } smallDatagram,
    .disposed smallDatagram (.backendRequest smallRequest)]

def success : ResponseDatagram :=
  { parentRequestId := requestId 1, result := .success }

theorem tryRequest_small :
    (written trace).step (.tryRequest service) =
      serving (trace ++ servedEvents) smallInflight [smallRequest] := by
  have qpNum : (written trace).responder.qpNum = 2 := rfl
  simp only [World.step, qpNum, withView, responderView_eq]
  simp [tryRequest, written, writing, idle, World.initial, LoopWorker.create, configuration,
    LocalTransport.tryPopRequest, handleRequest, smallDatagram, admitRequest, validFirst,
    requesterView, resolveRkey_small, peekReceive, acceptPayload, validPayload,
    responderInflightOf, consumeReceive, LoopWorker.setResponderInflight, serving, smallInflight,
    smallRequest, servedEvents, backendBatchCapacity]

theorem tryFlush_small :
    (serving trace smallInflight [smallRequest]).step (.tryFlushBackendRequests service 1) =
      serving (trace ++ [.accepted smallRequest]) smallInflight [] := by
  have qpNum : (serving trace smallInflight [smallRequest]).responder.qpNum = 2 := rfl
  simp only [World.step, qpNum, withView, responderView_eq]
  rfl

theorem tryBackendCompletions_small (pending : List BackendRequest) :
    (serving trace smallInflight pending).step
        (.tryBackendCompletions service [firstCompletion]) =
      serving (trace ++ [.popped firstCompletion]) (smallInflight.record firstCompletion)
        pending := by
  have qpNum : (serving trace smallInflight pending).responder.qpNum = 2 := rfl
  simp only [World.step, qpNum, withView, responderView_eq]
  simp [tryBackendCompletions, recordCompletion, serving, writing, idle, firstCompletion,
    LoopWorker.setResponderInflight]

theorem tryParentResponse_small (pending : List BackendRequest) :
    (serving trace (smallInflight.record firstCompletion) pending).step
        (.tryParentResponse service) =
      { writing (trace ++ [.responded success]) with
        transport := { requestCapacity := 1, responseCapacity := 1, responses := [success] }
        responder :=
          { (writing trace).responder with pendingBackendRequests := pending } } := by
  have qpNum : (serving trace (smallInflight.record firstCompletion) pending).responder.qpNum =
      2 := rfl
  have result : (smallInflight.record firstCompletion).result = .success := by decide
  simp only [World.step, qpNum, withView, responderView_eq]
  simp [tryParentResponse, serving, answerParent, result]
  simp [smallInflight, ResponderInflight.record, firstCompletion, ResponderInflight.advance,
    responderInflightOf, smallDatagram, LocalTransport.tryPushResponse, writing, idle,
    World.initial, configuration, retireParent, LoopWorker.create, success]

theorem tryResponse_small :
    { writing trace with
      transport :=
        ({ requestCapacity := 1, responseCapacity := 1, responses := [success] } :
          LocalTransport) }.step (.tryResponse service) =
      idle (LoopWorker.followingSequence 1)
        (trace ++ [.consumed success (some (answerOf 1 true success smallParent))]) := by
  have qpNum : (writing trace).requester.qpNum = 1 := rfl
  simp only [World.step, qpNum, withView, requesterView_eq]
  simp [tryResponse, writing, idle, World.initial, LoopWorker.create, configuration,
    LocalTransport.tryPopResponse, consumeResponse, success, finishResponse, answerOf,
    smallParent, pendingSendOf, PendingSend.inflight, requesterView, smallWrite]

/-- The write goes all the way through the backend. -/
def completedWrite : List Action :=
  [.postSend smallWrite, .trySend service, .tryRequest service,
    .tryFlushBackendRequests service 1, .tryBackendCompletions service [firstCompletion],
    .tryParentResponse service, .tryResponse service]

def completedEvents : List Event :=
  writtenEvents ++ servedEvents ++ [.accepted smallRequest] ++ [.popped firstCompletion] ++
    [.responded success] ++ [.consumed success (some (answerOf 1 true success smallParent))]

theorem run_completedWrite :
    Execution.run World.step (idle 1 trace) completedWrite =
      idle (LoopWorker.followingSequence 1) (trace ++ completedEvents) := by
  simp only [completedWrite, Execution.run_cons, Execution.run_nil, trySend_small,
    tryRequest_small, tryFlush_small, tryBackendCompletions_small, tryParentResponse_small]
  rw [completedEvents]
  simp only [← List.append_assoc]
  exact tryResponse_small _

/-- The request of the write waits in the responder while the completion of an earlier
request with the same id and index is delivered once more. -/
def staleWrite : List Action :=
  [.postSend smallWrite, .trySend service, .tryRequest service,
    .tryBackendCompletions service [firstCompletion], .tryParentResponse service]

theorem run_staleWrite :
    (Execution.run World.step (idle 1 trace) staleWrite).trace =
      trace ++ (writtenEvents ++ servedEvents ++ [.popped firstCompletion]) ++
        [.responded success] := by
  simp only [staleWrite, Execution.run_cons, Execution.run_nil, trySend_small,
    tryRequest_small, tryBackendCompletions_small, tryParentResponse_small]
  simp only [writing, idle, List.append_assoc]

theorem along_staleWrite (accepted : .accepted smallRequest ∈ trace) :
    Execution.Along World.step (Admissible CompletesAccepted) (idle 1 trace) staleWrite := by
  have used : ∀ other, some service = some other → other.Reachable := by
    rintro _ ⟨⟩
    exact service_reachable
  refine ⟨?_, ?_, ?_, ?_, ?_, trivial⟩
  · refine admissible_of_trace [.posted smallWrite] nofun rfl ?_
    intro event member
    rw [List.mem_singleton.mp member]
    trivial
  · refine admissible_of_trace writtenEvents.tail used ?_ ?_
    · rw [trySend_small]
      exact List.append_cons _ _ _
    · intro event member
      simp only [writtenEvents, List.tail_cons, List.mem_cons, List.not_mem_nil,
        or_false] at member
      rcases member with rfl | rfl | rfl <;> trivial
  · rw [trySend_small]
    refine admissible_of_trace servedEvents used ?_ ?_
    · rw [tryRequest_small]
      rfl
    · intro event member
      simp only [servedEvents, List.mem_cons, List.not_mem_nil, or_false] at member
      rcases member with rfl | rfl <;> trivial
  · rw [trySend_small, tryRequest_small]
    refine admissible_of_trace [.popped firstCompletion] used ?_ ?_
    · rw [tryBackendCompletions_small]
      rfl
    · intro event member
      rw [List.mem_singleton.mp member]
      refine ⟨smallRequest, List.mem_filterMap.mpr ⟨.accepted smallRequest, ?_, rfl⟩, rfl, rfl⟩
      exact List.mem_append_left _ (List.mem_append_left _ accepted)
  · rw [trySend_small, tryRequest_small, tryBackendCompletions_small]
    refine admissible_of_trace [.responded success] used ?_ ?_
    · rw [tryParentResponse_small]
      rfl
    · intro event member
      rw [List.mem_singleton.mp member]
      trivial

/-- A write that is copied, refused writes until its id comes back, and a write under
that id for which only the stale completion arrives. -/
def staleCompletion : List Action :=
  completedWrite ++ refusedWrites (2 ^ 32 - 2) ++ staleWrite

theorem run_staleCompletion :
    Execution.Along World.step (Admissible CompletesAccepted) (World.initial configuration)
        staleCompletion ∧
      ∃ before,
        (Execution.run World.step (World.initial configuration) staleCompletion).trace =
          before ++ (writtenEvents ++ servedEvents ++ [.popped firstCompletion]) ++
            [.responded success] := by
  have start : World.initial configuration = idle 1 [] := rfl
  obtain ⟨along, events, run⟩ := run_refusedWrites completesAccepted_restricts (2 ^ 32 - 2)
    (LoopWorker.followingSequence 1) completedEvents
  rw [refusedWrites_from_two] at run
  have first : Execution.run World.step (World.initial configuration) completedWrite =
      idle (LoopWorker.followingSequence 1) completedEvents := by
    rw [start, run_completedWrite, List.nil_append]
  have completed : Execution.Along World.step (Admissible CompletesAccepted)
      (World.initial configuration) completedWrite := by
    refine along_admissible ?_ (by decide +kernel)
    simp only [completedWrite]
    exact actions_reachable (by simp [Action.service])
  simp only [staleCompletion, Execution.along_append, Execution.run_append, first, run,
    run_staleWrite]
  exact ⟨⟨⟨completed, along⟩, along_staleWrite _ (by simp [completedEvents])⟩, _, rfl⟩

end Loopback

theorem premature_success :
    ¬∀ configuration actions,
      Execution.Along World.step (Admissible CompletesAccepted)
        (World.initial configuration) actions →
      NoPrematureSuccess
        (Execution.run World.step (World.initial configuration) actions).trace := by
  intro claimed
  obtain ⟨along, before, run⟩ := Loopback.run_staleCompletion
  have every := claimed _ _ along
  rw [run] at every
  obtain ⟨parent, copied⟩ :=
    (Trace.every_concat.mp every).2.responded Loopback.success rfl rfl
  -- No request was accepted since the last write was issued.
  have indices := copied.indices
  have issued := copied.issued
  simp only [Loopback.writtenEvents, Loopback.servedEvents, progress_append] at indices issued
  simp [Loopback.smallParent, pendingSendOf, Loopback.success, Loopback.smallRequest,
    backendRequestOf, Loopback.smallDatagram, Loopback.firstCompletion] at indices issued
  rw [← issued] at indices
  cases indices

end Ugdr.Worker
