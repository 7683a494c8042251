import Ugdr.Control.RequestEffects
import Ugdr.Worker.SendAccounting

/-! # Reuse of request ids

A request id is the QP number and a 32-bit sequence that skips zero, so after
`2 ^ 32 - 1` parents the ids repeat. A pair of connected queue pairs gets there with
empty writes that the responder refuses.
-/

namespace Ugdr.Worker.Loopback

open Ugdr.Queue Ugdr.Control Ugdr.Control.Loopback Ugdr.Wire
open Ugdr.Control.QpService (WorkerQpView)

def requesterView : WorkerQpView where
  sessionId := 1
  pdIdentity := pdIdentity
  qpNum := 1
  peerQpNum := 2
  maxSendSge := 4
  maxRecvSge := 4
  sqSigAll := 0
  sendQueue := ⟨.send, 4, 128⟩
  receiveQueue := ⟨.receive, 4, 128⟩
  sendCq := ⟨.completion, 4, 64⟩
  receiveCq := ⟨.completion, 4, 64⟩

theorem requesterView_eq : service.workerQpView 1 = .ok requesterView :=
  rfl

theorem responderView_eq :
    service.workerQpView 2 = .ok { requesterView with qpNum := 2, peerQpNum := 1 } :=
  rfl

def configuration : World.Configuration where
  requesterQpNum := 1
  responderQpNum := 2
  payloadBytes := 8
  observer := true
  requestCapacity := 1
  responseCapacity := 1
  sendQueueCapacity := 4
  sendCqCapacity := 4
  receiveQueueCapacity := 4
  receiveCqCapacity := 4

/-- Calls made in this control state are made in a reachable one. -/
theorem actions_reachable {actions : List Action}
    (used : ∀ action ∈ actions, ∀ other, action.service = some other → other = service) :
    ∀ action ∈ actions, ∀ other, action.service = some other → other.Reachable := by
  intro action member other same
  rw [used action member other same]
  exact service_reachable

/-- A write of 12 and 4 bytes. -/
def twoSegments : SendWqe where
  header := { opcode := wrRdmaWrite, sgeCount := 2, remoteAddress := 4096, rkey := 2 }
  sges := fun index =>
    { address := 4096 + 16 * index, length := if index = 0 then 12 else 4, lkey := 1 }
  length_lt := fun index => by
    dsimp only
    split <;> decide

/-- Both workers at rest, whatever happened before. -/
def idle (sequence : Nat) (trace : List Event) : World :=
  { World.initial configuration with
    requester := { (World.initial configuration).requester with nextSequence := sequence }
    trace }

/-! ## One refused write -/

theorem zero_lt : 0 < 2 ^ 32 := by decide

theorem eight_lt : 8 < 2 ^ 32 := by decide

def emptyWrite : SendWqe where
  header := {}
  sges := fun _ => {}
  length_lt := fun _ => zero_lt

def requestId (sequence : Nat) : Nat :=
  1 <<< 32 ||| sequence

section Cycle

variable (sequence : Nat) (trace : List Event)

def emptyParent : PendingSend :=
  pendingSendOf requesterView (requestId sequence) emptyWrite {}

def emptyDatagram : RequestDatagram :=
  { parentRequestId := requestId sequence, sourceQpNum := 1, targetQpNum := 2 }

def refusal : ResponseDatagram :=
  { parentRequestId := requestId sequence, result := .remoteAccessError }

def refusedAnswer : Answer :=
  answerOf 1 true (refusal sequence) (emptyParent sequence)

def refusedEntry : CompletionEntry :=
  sendCompletion 0 1 .remoteAccessError

def posted : World :=
  { idle sequence trace with
    sendQueue := { capacity := 4, items := [emptyWrite] }
    trace := trace ++ [.posted emptyWrite] }

/-- The requester at rest again but for the parent in flight. -/
def waiting : World :=
  { idle (LoopWorker.followingSequence sequence) trace with
    requester :=
      { (idle (LoopWorker.followingSequence sequence) trace).requester with
        requesterInflight :=
          Function.update (fun _ => none) (requestId sequence)
            (some (emptyParent sequence).inflight) } }

def sent : World :=
  { waiting sequence trace with
    transport :=
      { requestCapacity := 1, responseCapacity := 1, requests := [emptyDatagram sequence] } }

def refused : World :=
  { waiting sequence trace with
    transport :=
      { requestCapacity := 1, responseCapacity := 1, responses := [refusal sequence] } }

def answered : World :=
  { idle (LoopWorker.followingSequence sequence) trace with
    sendCq := { capacity := 4, items := [refusedEntry] } }

def sendEvents : List Event :=
  [.issued service requesterView emptyWrite (emptyParent sequence),
    .sent (emptyDatagram sequence), .released emptyWrite]

def refuseEvents : List Event :=
  [.resolved service { requesterView with qpNum := 2, peerQpNum := 1 } (emptyDatagram sequence),
    .disposed (emptyDatagram sequence) .accessError, .responded (refusal sequence)]

theorem postSend_idle :
    (idle sequence trace).step (.postSend emptyWrite) = posted sequence trace :=
  rfl

theorem trySend_posted :
    (posted sequence trace).step (.trySend service) =
      sent sequence (trace ++ [.posted emptyWrite] ++ sendEvents sequence) := by
  have qpNum : (posted sequence trace).requester.qpNum = 1 := rfl
  have free : (posted sequence trace).requester.pendingSend = none := rfl
  have loaded : loadSend service requesterView (posted sequence trace) = .ok
      { posted sequence trace with
        sendQueue := { capacity := 4, items := [emptyWrite], peeked := 1 }
        requester :=
          { (posted sequence trace).requester with
            requesterInflight :=
              Function.update (fun _ => none) (requestId sequence)
                (some (emptyParent sequence).inflight)
            pendingSend := some (emptyParent sequence) }
        trace :=
          trace ++ [.posted emptyWrite] ++
            [.issued service requesterView emptyWrite (emptyParent sequence)] } := rfl
  simp only [World.step, qpNum, withView, requesterView_eq, trySend, free, loaded, pushPayload]
  simp [emptyParent, pendingSendOf, LocalTransport.tryPushRequest, PendingSend.advance,
    PendingSend.finished, posted, idle, World.initial, configuration, Fifo.release, sent, waiting,
    sendEvents, LoopWorker.create, emptyDatagram, PendingSend.datagram, requesterView, emptyWrite,
    wrRdmaWrite, PendingSend.inflight]

theorem tryRequest_sent :
    (sent sequence trace).step (.tryRequest service) =
      refused sequence (trace ++ refuseEvents sequence) := by
  have qpNum : (sent sequence trace).responder.qpNum = 2 := rfl
  have unresolved : service.resolveRkey 1 pdIdentity 0 0 0 = .error .einval := rfl
  simp only [World.step, qpNum, withView, responderView_eq]
  simp [tryRequest, sent, waiting, idle, World.initial, LoopWorker.create, configuration,
    LocalTransport.tryPopRequest, handleRequest, emptyDatagram, admitRequest, validFirst,
    requesterView, unresolved, rejectRequest, LocalTransport.tryPushResponse, refused, refusal,
    refuseEvents]

theorem tryResponse_refused :
    (refused sequence trace).step (.tryResponse service) =
      answered sequence
        (trace ++ [.consumed (refusal sequence) (some (refusedAnswer sequence))]) := by
  have qpNum : (refused sequence trace).requester.qpNum = 1 := rfl
  simp only [World.step, qpNum, withView, requesterView_eq]
  simp [tryResponse, refused, waiting, idle, World.initial, LoopWorker.create, configuration,
    LocalTransport.tryPopResponse, consumeResponse, refusal, Fifo.produce, Fifo.reserve,
    Fifo.publish, finishResponse, answered, refusedEntry, refusedAnswer, answerOf, emptyParent,
    pendingSendOf, PendingSend.inflight, requesterView, emptyWrite]

theorem pollSendCq_answered :
    (answered sequence trace).step .pollSendCq =
      idle (LoopWorker.followingSequence sequence) (trace ++ [.polledSend refusedEntry]) :=
  rfl

def refusedWrite : List Action :=
  [.postSend emptyWrite, .trySend service, .tryRequest service, .tryResponse service,
    .pollSendCq]

def refusedEvents : List Event :=
  [.posted emptyWrite] ++ sendEvents sequence ++ refuseEvents sequence ++
    [.consumed (refusal sequence) (some (refusedAnswer sequence))] ++ [.polledSend refusedEntry]

theorem run_refusedWrite :
    Execution.run World.step (idle sequence trace) refusedWrite =
      idle (LoopWorker.followingSequence sequence) (trace ++ refusedEvents sequence) := by
  simp only [refusedWrite, Execution.run_cons, Execution.run_nil, postSend_idle, trySend_posted,
    tryRequest_sent, tryResponse_refused, pollSendCq_answered, refusedEvents,
    List.append_assoc]

end Cycle

/-! ## Many refused writes -/

/-- An action that appends `events` is admissible when they are permitted. -/
theorem admissible_of_trace {permitted : World → Event → Prop} {world : World}
    {action : Action} (events : List Event)
    (reachable : ∀ service, action.service = some service → service.Reachable)
    (trace : (world.step action).trace = world.trace ++ events)
    (allowed : ∀ event ∈ events, permitted world event) : Admissible permitted world action := by
  refine ⟨reachable, fun event member => allowed event ?_⟩
  rwa [World.newEvents, trace, List.drop_left] at member

/-- A condition on runs that only restricts the backend and other peers. -/
def RestrictsOthers (permitted : World → Event → Prop) : Prop :=
  ∀ world event, (∀ completion, event ≠ .popped completion) →
    (∀ response, event ≠ .delivered response) → (∀ request, event ≠ .taken request) →
    permitted world event

theorem along_refusedWrite {permitted : World → Event → Prop}
    (restricts : RestrictsOthers permitted) (sequence : Nat) (trace : List Event) :
    Execution.Along World.step (Admissible permitted) (idle sequence trace) refusedWrite := by
  have used : ∀ service', some service = some service' → service'.Reachable := by
    rintro _ ⟨⟩
    exact service_reachable
  refine ⟨?_, ?_, ?_, ?_, ?_, trivial⟩
  · exact admissible_of_trace [.posted emptyWrite] nofun rfl (by
      intro event member
      rw [List.mem_singleton.mp member]
      exact restricts _ _ nofun nofun nofun)
  · rw [postSend_idle]
    refine admissible_of_trace (sendEvents sequence) used ?_ ?_
    · rw [trySend_posted]
      rfl
    · intro event member
      simp only [sendEvents, List.mem_cons, List.not_mem_nil, or_false] at member
      rcases member with rfl | rfl | rfl <;> exact restricts _ _ nofun nofun nofun
  · rw [postSend_idle, trySend_posted]
    refine admissible_of_trace (refuseEvents sequence) used ?_ ?_
    · rw [tryRequest_sent]
      rfl
    · intro event member
      simp only [refuseEvents, List.mem_cons, List.not_mem_nil, or_false] at member
      rcases member with rfl | rfl | rfl <;> exact restricts _ _ nofun nofun nofun
  · rw [postSend_idle, trySend_posted, tryRequest_sent]
    refine admissible_of_trace
      [.consumed (refusal sequence) (some (refusedAnswer sequence))] used ?_ ?_
    · rw [tryResponse_refused]
      rfl
    · intro event member
      rw [List.mem_singleton.mp member]
      exact restricts _ _ nofun nofun nofun
  · rw [postSend_idle, trySend_posted, tryRequest_sent, tryResponse_refused]
    refine admissible_of_trace [.polledSend refusedEntry] nofun rfl ?_
    intro event member
    rw [List.mem_singleton.mp member]
    exact restricts _ _ nofun nofun nofun

def refusedWrites (count : Nat) : List Action :=
  (List.replicate count refusedWrite).flatten

/-- After `count` refused writes the workers are at rest and the sequence has moved on
`count` times. -/
theorem run_refusedWrites {permitted : World → Event → Prop}
    (restricts : RestrictsOthers permitted) (count sequence : Nat) (trace : List Event) :
    Execution.Along World.step (Admissible permitted) (idle sequence trace)
        (refusedWrites count) ∧
      ∃ events, Execution.run World.step (idle sequence trace) (refusedWrites count) =
        idle (LoopWorker.followingSequence^[count] sequence) (trace ++ events) := by
  induction count generalizing sequence trace with
  | zero => exact ⟨trivial, [], by simp [refusedWrites]⟩
  | succ count induction =>
      obtain ⟨along, events, run⟩ := induction (LoopWorker.followingSequence sequence)
        (trace ++ refusedEvents sequence)
      have unfolded : refusedWrites (count + 1) = refusedWrite ++ refusedWrites count := by
        simp [refusedWrites, List.replicate_succ]
      rw [unfolded]
      refine ⟨Execution.along_append.mpr ⟨along_refusedWrite restricts sequence trace, ?_⟩,
        refusedEvents sequence ++ events, ?_⟩
      · rw [run_refusedWrite]
        exact along
      · rw [Execution.run_append, run_refusedWrite, run, Function.iterate_succ_apply,
          List.append_assoc]

theorem followingSequence_iterate {count : Nat} (bound : count < 2 ^ 32 - 1) :
    LoopWorker.followingSequence^[count] 1 = count + 1 := by
  induction count with
  | zero => rfl
  | succ count induction =>
      rw [Function.iterate_succ_apply', induction (by omega), LoopWorker.followingSequence,
        Nat.mod_eq_of_lt (by omega)]
      simp

/-- The sequence repeats after `2 ^ 32 - 1` parents. -/
theorem followingSequence_wraps : LoopWorker.followingSequence^[2 ^ 32 - 1] 1 = 1 := by
  rw [show 2 ^ 32 - 1 = 2 ^ 32 - 2 + 1 from rfl, Function.iterate_succ_apply',
    followingSequence_iterate (by decide)]
  rfl

end Ugdr.Worker.Loopback
