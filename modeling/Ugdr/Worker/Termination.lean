import Ugdr.Foundation.Halting
import Ugdr.Worker.ProgressOnce
import Ugdr.Worker.ResponderCalls

/-! # Termination of `progress_once`

One call of `progress_once`, one helper call after the other, while nobody else takes a step.
The backend answers as it likes, but it has finitely many completions. Every loop then runs down
a measure: the completions, the parents in `responder_order_`, the datagrams in a queue together
with the pending one, or the room in the request queue together with the WQEs.
-/

namespace Ugdr.Worker

open Ugdr.Queue Ugdr.Control
open Ugdr.Control.QpService (WorkerQpView)

/-! ## Helper calls -/

/-- Where `progress_once` is. -/
inductive ProgressStage
  | responder (phase : Phase)
  | responses
  | sends
  | returned
  deriving DecidableEq, Repr

/-- The stage behind a helper call. The loops stay where they are as long as there is progress;
a flush is made once. -/
def ProgressStage.following (stage : ProgressStage) (result : Bool × World) : ProgressStage :=
  match stage with
  | .responder .flush => .responder (Phase.flush.afterFlush result.2)
  | .responder .flushAgain => .responder .completionsAgain
  | .responder .responsesAgain => if result.1 then .responder .responsesAgain else .returned
  | .responder phase => if result.1 then .responder phase else .responder phase.next
  | .responses => if result.1 then .responses else .sends
  | .sends => if result.1 then .sends else .returned
  | .returned => .returned

/-- The helper call of a stage, with the number of completions that the backend has before it
and after it. -/
inductive HelperCall (service : QpService) (view : WorkerQpView) (world : World) :
    ProgressStage → Nat → Bool × World → Nat → Prop
  | completions (phase : Phase) (offers : Nat) (completions : List BackendCompletion)
      (popping : phase = .completions ∨ phase = .completionsAgain)
      (batch : completions.length ≤ min backendBatchCapacity offers) :
      HelperCall service view world (.responder phase) offers
        (tryBackendCompletions completions world) (offers - completions.length)
  | parentResponse (phase : Phase) (offers : Nat)
      (answering : phase = .responses ∨ phase = .responsesAgain) :
      HelperCall service view world (.responder phase) offers (tryParentResponse view world)
        offers
  | flush (phase : Phase) (offers accepted : Nat)
      (flushing : phase = .flush ∨ phase = .flushAgain) :
      HelperCall service view world (.responder phase) offers
        (tryFlushBackendRequests accepted world) offers
  | request (offers : Nat) :
      HelperCall service view world (.responder .requests) offers
        (tryRequest service view world) offers
  | response (offers : Nat) :
      HelperCall service view world .responses offers (tryResponse view world) offers
  | send (offers : Nat) :
      HelperCall service view world .sends offers (trySend service view world) offers

/-- A call of `progress_once` on its way. -/
structure ProgressState where
  stage : ProgressStage
  world : World
  /-- How many completions the backend still has. -/
  offers : Nat
  progressed : Bool := false

inductive ProgressStep (service : QpService) (view : WorkerQpView) :
    ProgressState → ProgressState → Prop
  | call (state : ProgressState) (result : Bool × World) (offers : Nat)
      (called : HelperCall service view state.world state.stage state.offers result offers) :
      ProgressStep service view state
        { stage := state.stage.following result
          world := result.2
          offers
          progressed := state.progressed || result.1 }

/-- The first stage of a role. -/
def ProgressStage.first : LoopWorkerRole → ProgressStage
  | .responder => .responder .completions
  | .requester => .responses

/-! ## Measures -/

/-- The stages that are left. -/
def ProgressStage.rank : ProgressStage → Nat
  | .responder .completions => 7
  | .responder .responses => 6
  | .responder .flush => 5
  | .responder .requests => 4
  | .responder .flushAgain => 3
  | .responder .completionsAgain => 2
  | .responder .responsesAgain => 1
  | .responses => 2
  | .sends => 1
  | .returned => 0

namespace World

/-- A datagram in the queue takes two calls at most, a pending one takes one. -/
def requestWork (world : World) : Nat :=
  2 * world.transport.requests.length + world.responder.pendingRequest.toList.length

def responseWork (world : World) : Nat :=
  2 * world.transport.responses.length + world.requester.pendingResponse.toList.length

/-- The WQEs that can still fail and the datagrams that can still be sent. -/
def sendWork (world : World) : Nat :=
  world.sendQueue.items.length +
    (world.transport.requestCapacity - world.transport.requests.length)

end World

/-- What runs down in the loop of a stage. -/
def ProgressState.work (state : ProgressState) : Nat :=
  match state.stage with
  | .responder .completions => state.offers
  | .responder .completionsAgain => state.offers
  | .responder .responses => state.world.responder.responderOrder.length
  | .responder .responsesAgain => state.world.responder.responderOrder.length
  | .responder .requests => state.world.requestWork
  | .responses => state.world.responseWork
  | .sends => state.world.sendWork
  | _ => 0

section Work

variable {world : World} {service : QpService} {view : WorkerQpView}

theorem toList_length_le_one {Item : Type} (item : Option Item) : item.toList.length ≤ 1 := by
  cases item <;> simp

/-! ### Parent responses -/

theorem answerParent_order {requestId : Nat} {parent : ResponderInflight}
    (progressed : (answerParent view requestId parent world).1 = true) :
    (answerParent view requestId parent world).2.responder.responderOrder =
      world.responder.responderOrder.tail := by
  unfold answerParent at progressed ⊢
  simp only at progressed ⊢
  split
  · rename_i receives
    rw [if_pos receives] at progressed
    split
    · rename_i refused
      rw [refused] at progressed
      cases progressed
    · rename_i reserved
      rw [reserved] at progressed
      split
      · rename_i full
        rw [full] at progressed
        simp only at progressed
        split at progressed <;> cases progressed
      · rename_i pushed
        rw [pushed] at progressed
        simp only at progressed ⊢
        split
        · rename_i unpublished
          rw [unpublished] at progressed
          cases progressed
        · rfl
  · rename_i plain
    rw [if_neg plain] at progressed
    split
    · rename_i full
      rw [full] at progressed
      cases progressed
    · rfl

theorem tryParentResponse_work (progressed : (tryParentResponse view world).1 = true) :
    (tryParentResponse view world).2.responder.responderOrder.length <
      world.responder.responderOrder.length := by
  unfold tryParentResponse at progressed ⊢
  cases order : world.responder.responderOrder with
  | nil =>
      rw [order] at progressed
      cases progressed
  | cons requestId rest =>
      rw [order] at progressed
      simp only at progressed ⊢
      cases found : world.responder.responderInflight requestId with
      | none => exact Nat.lt_succ_self _
      | some parent =>
          rw [found] at progressed
          simp only at progressed ⊢
          split
          · rename_i waits
            rw [if_pos waits] at progressed
            cases progressed
          · rename_i complete
            rw [if_neg complete] at progressed
            rw [answerParent_order progressed, order]
            exact Nat.lt_succ_self _

/-! ### Requests -/

/-- A call that made progress has taken the pending datagram away, if it did not load it. -/
def TakesRequest (loaded : Bool) (world : World) (result : Bool × World) : Prop :=
  result.1 = true → result.2.transport.requests = world.transport.requests ∧
    (loaded = true ∨ result.2.responder.pendingRequest = none)

theorem TakesRequest.unchanged (loaded : Bool) (world : World) :
    TakesRequest loaded world (loaded, world) :=
  fun progressed => ⟨rfl, .inl progressed⟩

theorem rejectRequest_takes (loaded : Bool) (request : RequestDatagram)
    (result : DatagramResult) (events : List Event) :
    TakesRequest loaded world (rejectRequest loaded request result events world) := by
  unfold rejectRequest LocalTransport.tryPushResponse
  simp only
  split
  · exact .unchanged loaded world
  · rename_i transport pushed
    split at pushed
    · cases pushed
    · injection pushed with pushed
      intro progressed
      rw [← pushed]
      exact ⟨rfl, .inr rfl⟩

theorem acceptPayload_takes (loaded : Bool) (request : RequestDatagram)
    (parent : ResponderInflight) :
    TakesRequest loaded world (acceptPayload loaded request parent world) := by
  unfold acceptPayload
  split
  · exact fun progressed => ⟨rfl, .inl progressed⟩
  · split
    · split
      · exact nofun
      · exact fun _ => ⟨rfl, .inr rfl⟩
    · split
      · exact .unchanged loaded world
      · simp only
        split
        · exact .unchanged loaded world
        · exact fun _ => ⟨rfl, .inr rfl⟩

theorem handleRequest_takes (loaded : Bool) (request : RequestDatagram) :
    TakesRequest loaded world (handleRequest service view loaded request world) := by
  unfold handleRequest
  split
  · exact rejectRequest_takes loaded request _ _
  · split
    · exact acceptPayload_takes loaded request _
    · unfold admitRequest
      split
      · exact rejectRequest_takes loaded request _ _
      · split
        · exact rejectRequest_takes loaded request _ _
        · split
          · exact .unchanged loaded world
          · intro progressed
            exact acceptPayload_takes loaded request _ progressed

theorem tryRequest_work (progressed : (tryRequest service view world).1 = true) :
    (tryRequest service view world).2.requestWork < world.requestWork := by
  unfold tryRequest at progressed ⊢
  cases pending : world.responder.pendingRequest with
  | some request =>
      rw [pending] at progressed
      simp only at progressed ⊢
      obtain ⟨requests, taken⟩ := handleRequest_takes false request progressed
      have empty := taken.resolve_left Bool.false_ne_true
      rw [World.requestWork, World.requestWork, requests, empty, pending]
      exact Nat.lt_succ_self _
  | none =>
      rw [pending] at progressed
      unfold LocalTransport.tryPopRequest at progressed ⊢
      cases queue : world.transport.requests with
      | nil =>
          rw [queue] at progressed
          cases progressed
      | cons request rest =>
          rw [queue] at progressed
          simp only at progressed ⊢
          obtain ⟨requests, -⟩ := handleRequest_takes true request progressed
          rw [World.requestWork, World.requestWork, requests, pending, queue]
          refine Nat.lt_of_le_of_lt (Nat.add_le_add_left (toList_length_le_one _) _) ?_
          simp only [List.length_cons, Option.toList_none, List.length_nil]
          omega

/-! ### Responses -/

theorem consumeResponse_takes (loaded : Bool) (response : ResponseDatagram)
    (progressed : (consumeResponse view loaded response world).1 = true) :
    (consumeResponse view loaded response world).2.transport.responses =
        world.transport.responses ∧
      (loaded = true ∨
        (consumeResponse view loaded response world).2.requester.pendingResponse = none) := by
  unfold consumeResponse at progressed ⊢
  split
  · exact ⟨rfl, .inr rfl⟩
  · rename_i inflight found
    rw [found] at progressed
    simp only at progressed ⊢
    split
    · rename_i needs
      rw [if_pos needs] at progressed
      split
      · rename_i full
        rw [full] at progressed
        exact ⟨rfl, .inl progressed⟩
      · exact ⟨rfl, .inr rfl⟩
    · exact ⟨rfl, .inr rfl⟩

theorem tryResponse_work (progressed : (tryResponse view world).1 = true) :
    (tryResponse view world).2.responseWork < world.responseWork := by
  unfold tryResponse at progressed ⊢
  cases pending : world.requester.pendingResponse with
  | some response =>
      rw [pending] at progressed
      simp only at progressed ⊢
      obtain ⟨responses, taken⟩ := consumeResponse_takes false response progressed
      have empty := taken.resolve_left Bool.false_ne_true
      rw [World.responseWork, World.responseWork, responses, empty, pending]
      exact Nat.lt_succ_self _
  | none =>
      rw [pending] at progressed
      unfold LocalTransport.tryPopResponse at progressed ⊢
      cases queue : world.transport.responses with
      | nil =>
          rw [queue] at progressed
          cases progressed
      | cons response rest =>
          rw [queue] at progressed
          simp only at progressed ⊢
          obtain ⟨responses, -⟩ := consumeResponse_takes true response progressed
          rw [World.responseWork, World.responseWork, responses, pending, queue]
          refine Nat.lt_of_le_of_lt (Nat.add_le_add_left (toList_length_le_one _) _) ?_
          simp only [List.length_cons, Option.toList_none, List.length_nil]
          omega

/-! ### Sends -/

theorem completeSendError_work {wqe : SendWqe} {status : Nat} {queue : Fifo SendWqe}
    (items : queue.items.head? = some wqe) (same : queue.items = world.sendQueue.items)
    (progressed : (completeSendError view wqe status queue world).1 = true) :
    (completeSendError view wqe status queue world).2.sendWork < world.sendWork := by
  unfold completeSendError at progressed ⊢
  simp only at progressed ⊢
  split
  · rename_i full
    rw [full] at progressed
    simp only at progressed
    split at progressed <;> cases progressed
  · rename_i sendCq produced
    rw [produced] at progressed
    simp only at progressed ⊢
    split
    · rename_i held
      rw [held] at progressed
      cases progressed
    · rename_i released release
      unfold Fifo.release at release
      split at release
      · cases release
      · injection release with release
        rw [World.sendWork, World.sendWork, ← release, ← same, List.length_drop]
        have some : 0 < queue.items.length :=
          List.length_pos_of_mem (List.mem_of_mem_head? items)
        dsimp only
        omega

theorem pushPayload_work {parent : PendingSend}
    (progressed : (pushPayload parent world).1 = true) :
    (pushPayload parent world).2.sendWork < world.sendWork := by
  unfold pushPayload LocalTransport.tryPushRequest at progressed ⊢
  split
  · rename_i sent
    rw [if_pos sent] at progressed
    cases progressed
  · rename_i unsent
    rw [if_neg unsent] at progressed
    simp only at progressed ⊢
    by_cases full : world.transport.requestCapacity ≤ world.transport.requests.length
    · rw [if_pos full] at progressed
      cases progressed
    · rw [if_neg full] at progressed ⊢
      simp only at progressed ⊢
      split
      · simp only [World.sendWork, List.length_append, List.length_singleton]
        omega
      · rename_i finished
        rw [if_neg finished] at progressed
        split
        · rename_i held
          rw [held] at progressed
          cases progressed
        · rename_i released release
          unfold Fifo.release at release
          split at release
          · cases release
          · injection release with release
            simp only [World.sendWork, ← release, List.length_drop, List.length_append,
              List.length_singleton]
            omega

/-- The call that loads a parent leaves the WQE in its slot. -/
theorem loadSend_work {loaded : World} (loads : loadSend service view world = .ok loaded) :
    loaded.sendWork = world.sendWork := by
  unfold loadSend at loads
  split at loads
  · cases loads
  · rename_i wqe queue peeked
    obtain ⟨-, -, rfl⟩ := Fifo.peek_eq_ok peeked
    split at loads
    · cases loads
    · simp only at loads
      split at loads
      · cases loads
      · injection loads with loads
        rw [← loads]
        rfl

theorem loadSend_error_work {result : Bool × World}
    (fails : loadSend service view world = .error result) (progressed : result.1 = true) :
    result.2.sendWork < world.sendWork := by
  unfold loadSend at fails
  split at fails
  · injection fails with fails
    rw [← fails] at progressed
    cases progressed
  · rename_i wqe queue peeked
    obtain ⟨-, head, rfl⟩ := Fifo.peek_eq_ok peeked
    split at fails
    · injection fails with fails
      rw [← fails] at progressed ⊢
      exact completeSendError_work head rfl progressed
    · simp only at fails
      split at fails
      · injection fails with fails
        rw [← fails] at progressed
        cases progressed
      · cases fails

theorem trySend_work (progressed : (trySend service view world).1 = true) :
    (trySend service view world).2.sendWork < world.sendWork := by
  unfold trySend at progressed ⊢
  cases pending : world.requester.pendingSend with
  | some parent =>
      rw [pending] at progressed
      exact pushPayload_work progressed
  | none =>
      rw [pending] at progressed
      simp only at progressed ⊢
      cases loads : loadSend service view world with
      | error result =>
          rw [loads] at progressed
          exact loadSend_error_work loads progressed
      | ok loaded =>
          rw [loads] at progressed
          simp only at progressed ⊢
          rw [← loadSend_work loads]
          cases ready : loaded.requester.pendingSend with
          | some parent =>
              rw [ready] at progressed
              exact pushPayload_work progressed
          | none =>
              rw [ready] at progressed
              cases progressed

end Work

/-! ## Steps -/

variable {service : QpService} {view : WorkerQpView}

theorem ProgressStep.descends {state next : ProgressState}
    (step : ProgressStep service view state next) :
    next.stage.rank < state.stage.rank ∨
      next.stage.rank = state.stage.rank ∧ next.work < state.work := by
  obtain ⟨stage, world, available, progressed⟩ := state
  obtain ⟨result, offers, called⟩ := step
  cases called with
  | completions phase _ completions popping batch =>
      by_cases empty : completions = []
      · left
        rcases popping with rfl | rfl <;>
          simp [empty, tryBackendCompletions, ProgressStage.following, ProgressStage.rank,
            Phase.next]
      · right
        have some := List.length_pos_iff.mpr empty
        have within : completions.length ≤ min backendBatchCapacity available := batch
        have less : available - completions.length < available := by omega
        rcases popping with rfl | rfl <;>
          simpa only [tryBackendCompletions, ne_eq, empty, not_false_eq_true, decide_true,
            ProgressStage.following, if_true, ProgressState.work, true_and] using less
  | parentResponse phase _ answering =>
      cases again : (tryParentResponse view world).1 with
      | false =>
          left
          rcases answering with rfl | rfl <;>
            simp [again, ProgressStage.following, ProgressStage.rank, Phase.next]
      | true =>
          right
          have less := tryParentResponse_work again
          rcases answering with rfl | rfl <;>
            simpa only [again, ProgressStage.following, if_true, ProgressState.work,
              true_and] using less
  | flush phase _ accepted flushing =>
      left
      rcases flushing with rfl | rfl
      · simp only [ProgressStage.following, Phase.afterFlush]
        split <;> simp [ProgressStage.rank, Phase.next]
      · simp [ProgressStage.following, ProgressStage.rank]
  | request =>
      cases again : (tryRequest service view world).1 with
      | false => simp [again, ProgressStage.following, ProgressStage.rank, Phase.next]
      | true =>
          right
          simpa only [again, ProgressStage.following, if_true, ProgressState.work, true_and] using
            tryRequest_work again
  | response =>
      cases again : (tryResponse view world).1 with
      | false => simp [again, ProgressStage.following, ProgressStage.rank]
      | true =>
          right
          simpa only [again, ProgressStage.following, if_true, ProgressState.work, true_and] using
            tryResponse_work again
  | send =>
      cases again : (trySend service view world).1 with
      | false => simp [again, ProgressStage.following, ProgressStage.rank]
      | true =>
          right
          simpa only [again, ProgressStage.following, if_true, ProgressState.work, true_and] using
            trySend_work again

/-- Until it has returned, the call goes on whatever it finds. -/
theorem ProgressStep.exists_next (state : ProgressState) (running : state.stage ≠ .returned) :
    ∃ next, ProgressStep service view state next := by
  obtain ⟨stage, world, offers, progressed⟩ := state
  cases stage with
  | responder phase =>
      cases phase with
      | completions | completionsAgain =>
          exact ⟨_, .call _ _ _ (.completions _ offers [] (by decide) (Nat.zero_le _))⟩
      | responses | responsesAgain =>
          exact ⟨_, .call _ _ _ (.parentResponse _ offers (by decide))⟩
      | flush | flushAgain =>
          exact ⟨_, .call _ _ _ (.flush _ offers 0 (by decide))⟩
      | requests => exact ⟨_, .call _ _ _ (.request offers)⟩
  | responses => exact ⟨_, .call _ _ _ (.response offers)⟩
  | sends => exact ⟨_, .call _ _ _ (.send offers)⟩
  | returned => exact absurd rfl running

theorem ProgressStep.halts (state : ProgressState) :
    Halts (ProgressStep service view) state :=
  halts_of_descends (fun state => state.stage.rank) ProgressState.work
    (fun _ _ step => step.descends) state

/-! ## Results -/

/-- What the calls of a stage do, where the stage `after` follows a call without progress. -/
def Repeats (service : QpService) (view : WorkerQpView) (stage after : ProgressStage)
    (call : World → Bool × World → Prop) : Prop :=
  ∀ state next, state.stage = stage → ProgressStep service view state next →
    ∃ result, call state.world result ∧ next.world = result.2 ∧
      next.progressed = (state.progressed || result.1) ∧
      next.stage = if result.1 then stage else after

/-- The steps from a stage to the return begin with the loop of the stage. -/
theorem loop_of_steps {stage after : ProgressStage} {call : World → Bool × World → Prop}
    (repeats : Repeats service view stage after call) (running : stage ≠ .returned)
    {state last : ProgressState}
    (steps : Relation.ReflTransGen (ProgressStep service view) state last)
    (here : state.stage = stage) (returned : last.stage = .returned) :
    ∃ result middle, Loop call state.world result ∧ middle.stage = after ∧
      middle.world = result.2 ∧ middle.progressed = (state.progressed || result.1) ∧
      Relation.ReflTransGen (ProgressStep service view) middle last := by
  induction steps using Relation.ReflTransGen.head_induction_on with
  | refl => exact absurd (here.symm.trans returned) running
  | head step rest induction =>
      rename_i state next
      obtain ⟨⟨again, world⟩, called, moved, progress, reached⟩ := repeats state next here step
      cases again with
      | false =>
          exact ⟨(false, world), next, .stop _ _ called, reached, moved, progress, rest⟩
      | true =>
          obtain ⟨⟨progressed, final⟩, middle, loop, stage, finished, further, steps⟩ :=
            induction reached
          rw [moved] at loop
          refine ⟨(true, final), middle, .again _ _ _ progressed called loop, stage, finished,
            ?_, steps⟩
          rw [further, progress, Bool.or_true, Bool.true_or]

section Stages

theorem completions_repeats {phase : Phase} {after : ProgressStage}
    (popping : phase = .completions ∨ phase = .completionsAgain)
    (follows : ∀ result, (ProgressStage.responder phase).following result =
      if result.1 then .responder phase else after) :
    Repeats service view (.responder phase) after CompletionsCall := by
  rintro ⟨stage, world, offers, progressed⟩ next rfl ⟨result, left, called⟩
  cases called with
  | completions _ _ completions _ batch =>
      exact ⟨_, ⟨completions, rfl⟩, rfl, rfl, follows _⟩
  | parentResponse _ _ other | flush _ _ _ other =>
      rcases popping with rfl | rfl <;> rcases other with other | other <;> cases other
  | request => rcases popping with other | other <;> cases other

theorem parentResponses_repeats {phase : Phase} {after : ProgressStage}
    (answering : phase = .responses ∨ phase = .responsesAgain)
    (follows : ∀ result, (ProgressStage.responder phase).following result =
      if result.1 then .responder phase else after) :
    Repeats service view (.responder phase) after
      fun world result => result = tryParentResponse view world := by
  rintro ⟨stage, world, offers, progressed⟩ next rfl ⟨result, left, called⟩
  cases called with
  | parentResponse => exact ⟨_, rfl, rfl, rfl, follows _⟩
  | completions _ _ _ other | flush _ _ _ other =>
      rcases answering with rfl | rfl <;> rcases other with other | other <;> cases other
  | request => rcases answering with other | other <;> cases other

theorem requests_repeats :
    Repeats service view (.responder .requests) (.responder .flushAgain)
      fun world result => result = tryRequest service view world := by
  rintro ⟨stage, world, offers, progressed⟩ next rfl ⟨result, left, called⟩
  cases called with
  | request => exact ⟨_, rfl, rfl, rfl, rfl⟩
  | completions _ _ _ other | flush _ _ _ other | parentResponse _ _ other =>
      rcases other with other | other <;> cases other

theorem responses_repeats :
    Repeats service view .responses .sends
      fun world result => result = tryResponse view world := by
  rintro ⟨stage, world, offers, progressed⟩ next rfl ⟨result, left, called⟩
  cases called with
  | response => exact ⟨_, rfl, rfl, rfl, rfl⟩

theorem sends_repeats :
    Repeats service view .sends .returned
      fun world result => result = trySend service view world := by
  rintro ⟨stage, world, offers, progressed⟩ next rfl ⟨result, left, called⟩
  cases called with
  | send => exact ⟨_, rfl, rfl, rfl, rfl⟩

/-- A flush is made once. -/
theorem flush_of_steps {phase : Phase} (flushing : phase = .flush ∨ phase = .flushAgain)
    {state last : ProgressState}
    (steps : Relation.ReflTransGen (ProgressStep service view) state last)
    (here : state.stage = .responder phase) (returned : last.stage = .returned) :
    ∃ result middle, FlushCall state.world result ∧
      middle.stage = (ProgressStage.responder phase).following result ∧
      middle.world = result.2 ∧ middle.progressed = (state.progressed || result.1) ∧
      Relation.ReflTransGen (ProgressStep service view) middle last := by
  rcases Relation.ReflTransGen.cases_head steps with same | ⟨middle, step, rest⟩
  · rw [← same, here] at returned
    cases returned
  · obtain ⟨stage, world, offers, progressed⟩ := state
    obtain ⟨result, left, called⟩ := step
    obtain rfl : stage = .responder phase := here
    cases called with
    | flush _ _ accepted => exact ⟨_, _, ⟨accepted, rfl⟩, rfl, rfl, rfl, rest⟩
    | completions _ _ _ other | parentResponse _ _ other =>
        rcases flushing with rfl | rfl <;> rcases other with other | other <;> cases other
    | request => rcases flushing with other | other <;> cases other

end Stages

/-- The call before its first helper call. -/
def ProgressState.start (role : LoopWorkerRole) (world : World) (offers : Nat) : ProgressState :=
  { stage := .first role, world, offers }

/-- The number of the QP that a worker serves. -/
def World.qpNum (world : World) : LoopWorkerRole → Nat
  | .requester => world.requester.qpNum
  | .responder => world.responder.qpNum

theorem last_of_returned {state last : ProgressState}
    (steps : Relation.ReflTransGen (ProgressStep service view) state last)
    (returned : state.stage = .returned) : state = last := by
  rcases Relation.ReflTransGen.cases_head steps with same | ⟨next, step, -⟩
  · exact same
  · obtain ⟨stage, world, offers, progressed⟩ := state
    obtain ⟨result, left, called⟩ := step
    obtain rfl : stage = .returned := returned
    cases called

theorem takeRequests_of_steps {state last : ProgressState} {flushed : Bool × World}
    (steps : Relation.ReflTransGen (ProgressStep service view) state last)
    (here : state.stage = .responder (Phase.flush.afterFlush flushed.2))
    (world : state.world = flushed.2) (returned : last.stage = .returned) :
    ∃ taken middle, TakeRequests service view flushed.2 taken ∧
      middle.stage = .responder .completionsAgain ∧ middle.world = taken.2 ∧
      middle.progressed = (state.progressed || taken.1) ∧
      Relation.ReflTransGen (ProgressStep service view) middle last := by
  unfold TakeRequests
  by_cases empty : flushed.2.responder.pendingBackendRequests.length = 0
  · simp only [if_pos empty]
    rw [Phase.afterFlush, if_neg (fun pending => pending.2 empty)] at here
    obtain ⟨taken, middle, loop, stage, moved, progress, steps⟩ :=
      loop_of_steps requests_repeats (by decide) steps here returned
    obtain ⟨again, next, flush, stage, final, further, steps⟩ :=
      flush_of_steps (.inr rfl) steps stage returned
    rw [world] at loop
    rw [moved] at flush
    refine ⟨_, next, ⟨taken, again, loop, flush, rfl⟩, stage, final, ?_, steps⟩
    rw [further, progress, Bool.or_assoc]
  · simp only [if_neg empty]
    rw [Phase.afterFlush, if_pos ⟨rfl, empty⟩] at here
    exact ⟨_, state, rfl, here, world, (Bool.or_false _).symm, steps⟩

/-- Where the call returns, it has done what `progress_once` does. -/
theorem progressOnce_of_steps {role : LoopWorkerRole} {world : World} {offers : Nat}
    {last : ProgressState}
    (found : service.workerQpView (world.qpNum role) = .ok view)
    (steps : Relation.ReflTransGen (ProgressStep service view) (.start role world offers) last)
    (returned : last.stage = .returned) :
    ProgressOnce service role world (last.progressed, last.world) := by
  cases role with
  | responder =>
      rw [World.qpNum] at found
      simp only [ProgressOnce, found]
      obtain ⟨popped, first, pop, stage, popMoves, pops, steps⟩ :=
        loop_of_steps (completions_repeats (.inl rfl) fun _ => rfl) (by decide) steps rfl returned
      obtain ⟨answered, second, answer, stage, answerMoves, answers, steps⟩ :=
        loop_of_steps (parentResponses_repeats (.inl rfl) fun _ => rfl) (by decide) steps stage
          returned
      obtain ⟨flushed, third, flush, stage, flushMoves, flushes, steps⟩ :=
        flush_of_steps (.inl rfl) steps stage returned
      obtain ⟨taken, fourth, take, stage, takeMoves, takes, steps⟩ :=
        takeRequests_of_steps steps stage flushMoves returned
      obtain ⟨poppedAgain, fifth, popAgain, stage, popAgainMoves, popsAgain, steps⟩ :=
        loop_of_steps (completions_repeats (.inr rfl) fun _ => rfl) (by decide) steps stage returned
      obtain ⟨answeredAgain, sixth, answerAgain, stage, answerAgainMoves, answersAgain, steps⟩ :=
        loop_of_steps (parentResponses_repeats (.inr rfl) fun _ => rfl) (by decide) steps stage
          returned
      obtain rfl := last_of_returned steps stage
      rw [popMoves] at answer
      rw [answerMoves] at flush
      rw [takeMoves] at popAgain
      rw [popAgainMoves] at answerAgain
      refine ⟨popped, answered, flushed, taken, poppedAgain, answeredAgain, pop, answer, flush,
        take, popAgain, answerAgain, ?_⟩
      rw [answersAgain, popsAgain, takes, flushes, answers, pops, answerAgainMoves]
      rfl
  | requester =>
      rw [World.qpNum] at found
      simp only [ProgressOnce, found]
      obtain ⟨answered, first, answer, stage, answerMoves, answers, steps⟩ :=
        loop_of_steps responses_repeats (by decide) steps rfl returned
      obtain ⟨sent, second, send, stage, sendMoves, sends, steps⟩ :=
        loop_of_steps sends_repeats (by decide) steps stage returned
      obtain rfl := last_of_returned steps stage
      rw [answerMoves] at send
      refine ⟨answered, sent, answer, send, ?_⟩
      rw [sends, answers, sendMoves]
      rfl

theorem exists_progressOnce (service : QpService) (role : LoopWorkerRole) (world : World) :
    ∃ result, ProgressOnce service role world result := by
  cases looked : service.workerQpView (world.qpNum role) with
  | error status =>
      refine ⟨(false, world), ?_⟩
      cases role <;>
        · rw [World.qpNum] at looked
          simp only [ProgressOnce, looked]
  | ok view =>
      have halts : Halts (ProgressStep service view) (.start role world 0) :=
        ProgressStep.halts _
      obtain ⟨last, steps, stuck⟩ := halts.exists_last
      have returned : last.stage = .returned := by
        by_contra running
        obtain ⟨next, step⟩ := ProgressStep.exists_next last running
        exact stuck next step
      exact ⟨_, progressOnce_of_steps looked steps returned⟩

/-- From every state of a worker, of its queues and of the backend, and in whichever loop it is,
no sequence of helper calls goes on for ever, and it goes on until `progress_once` returns with
what the loops have done. -/
theorem progress_once_terminates (service : QpService) (role : LoopWorkerRole) (world : World)
    (offers : Nat) :
    (∀ view state, Halts (ProgressStep service view) state) ∧
      (∀ view state, state.stage ≠ .returned → ∃ next, ProgressStep service view state next) ∧
      (∃ result, ProgressOnce service role world result) ∧
      ∀ view last, service.workerQpView (world.qpNum role) = .ok view →
        Relation.ReflTransGen (ProgressStep service view) (.start role world offers) last →
          last.stage = .returned →
            ProgressOnce service role world (last.progressed, last.world) :=
  ⟨fun _ state => ProgressStep.halts state, fun _ state => ProgressStep.exists_next state,
    exists_progressOnce service role world,
    fun _ _ found steps returned => progressOnce_of_steps found steps returned⟩

end Ugdr.Worker
