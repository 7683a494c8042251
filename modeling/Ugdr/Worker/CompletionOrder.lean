import Ugdr.Foundation.Answers
import Ugdr.Worker.CopyBeforeSuccess

/-! # Order of send completions

Successful parents are answered in the order of `responder_order_`, but a WR that
fails a check of `try_send`, or whose first request is refused by `try_request`, is
completed at once. The send completions of a QP keep the posting order as long as
such an error finds no earlier WR in flight.
-/

namespace Ugdr.Worker

open Ugdr.Queue Ugdr.Control
open Ugdr.Control.QpService (WorkerQpView)

variable {permitted : World → Event → Prop} {world next : World}

/-! ## Ledger -/

/-- A WR that became a parent and is not completed. `serial` is its number in the order
in which the WRs of the queue were started. -/
structure OpenWr where
  requestId : Nat
  serial : Nat
  wqe : SendWqe

/-- A completed WR with the completion entry published for it, if there was one. -/
structure CompletedWr where
  serial : Nat
  wqe : SendWqe
  entry : Option CompletionEntry

/-- The WRs started so far: those in flight in the order in which they were issued and
those completed in the order of their completion. -/
structure Ledger where
  started : Nat := 0
  opened : List OpenWr := []
  completed : List CompletedWr := []

@[simp] def Ledger.step (ledger : Ledger) : Event → Ledger
  | .issued _ _ wqe parent =>
      { ledger with
        started := ledger.started + 1
        opened := ledger.opened ++ [⟨parent.parentRequestId, ledger.started, wqe⟩] }
  | .failed wqe entry =>
      { ledger with
        started := ledger.started + 1
        completed := ledger.completed ++ [⟨ledger.started, wqe, some entry⟩] }
  | .consumed response (some answer) =>
      match ledger.opened.find? fun wr => wr.requestId = response.parentRequestId with
      | none => ledger
      | some wr =>
          { ledger with
            opened := ledger.opened.eraseP fun wr => wr.requestId = response.parentRequestId
            completed := ledger.completed ++ [⟨wr.serial, wr.wqe, answer.completion⟩] }
  | _ => ledger

def ledger (trace : List Event) : Ledger :=
  trace.foldl Ledger.step {}

theorem ledger_append (trace events : List Event) :
    ledger (trace ++ events) = events.foldl Ledger.step (ledger trace) :=
  List.foldl_append

@[simp] theorem ledger_concat (trace : List Event) (event : Event) :
    ledger (trace ++ [event]) = (ledger trace).step event :=
  ledger_append trace [event]

theorem ledger_append_of_foreign {trace events : List Event}
    (foreign : ∀ event ∈ events, event.bySender = false) :
    ledger (trace ++ events) = ledger trace := by
  induction events using List.reverseRecOn with
  | nil => rw [List.append_nil]
  | append_singleton events event induction =>
      have quiet := foreign event (by simp)
      rw [← List.append_assoc, ledger_concat,
        induction fun other member => foreign other (by simp [member])]
      cases event <;> first | rfl | cases quiet

/-- The entry that the QP itself publishes with this event. -/
@[simp] def Event.ownCompletion? : Event → Option CompletionEntry
  | .failed _ entry => some entry
  | .consumed _ (some answer) => answer.completion
  | _ => none

namespace World

/-- The send completions published for the QP. -/
def ownCompletions (world : World) : List CompletionEntry :=
  world.trace.filterMap Event.ownCompletion?

theorem returning_concat (world : World) (responder : LoopWorker) (receiveCq : Fifo CompletionEntry)
    (trace : List Event) (response : ResponseDatagram) :
    (returning
        { world with
          responder
          transport :=
            { world.transport with responses := world.transport.responses ++ [response] }
          receiveCq
          trace }).map ResponseDatagram.parentRequestId =
      world.returning.map ResponseDatagram.parentRequestId ++ [response.parentRequestId] := by
  simp [returning]

/-- The request ids in flight, in the order in which they were issued. -/
def openIds (world : World) : List Nat :=
  (ledger world.trace).opened.map OpenWr.requestId

end World

/-! ## Completions in order -/

/-- The WRs that are completed are the first ones posted, in order, and the entries
published for the QP are theirs. -/
structure CompletionsInOrder (world : World) : Prop where
  serials : (ledger world.trace).completed.map CompletedWr.serial =
    List.range (ledger world.trace).completed.length
  posted : (ledger world.trace).completed.map CompletedWr.wqe <+: world.posted
  entries : ∀ wr ∈ (ledger world.trace).completed, ∀ entry, wr.entry = some entry →
    entry.wrId = wr.wqe.header.wrId
  published : world.ownCompletions =
    (ledger world.trace).completed.filterMap CompletedWr.entry

/-- The workers are connected and alone on their transport, and an id is issued again only
when nothing is in flight under it. A WR fails a check of `try_send` only when
`requester_inflight_` holds no parent, and a first request is refused only when
`responder_order_` is empty. -/
def Orderly (world : World) : Event → Prop
  | .issued _ view _ parent =>
      view.peerQpNum = world.responder.qpNum ∧ Quiet world parent.parentRequestId
  | .failed _ _ =>
      ∀ parent ∈ world.issued,
        world.requester.requesterInflight parent.parentRequestId = none
  | .disposed _ .accessError => world.responder.responderOrder = []
  | .delivered _ => False
  | .taken _ => False
  | _ => True

theorem Orderly.paired {event : Event} (orderly : Orderly world event) :
    Paired world event := by
  cases event with
  | issued => exact ⟨orderly.1, orderly.2.fresh⟩
  | taken => exact orderly
  | _ => trivial

/-- The parents in flight wait in this order: those whose response is on its way, those
the responder keeps, and those it has not looked up. -/
structure InOrder (world : World) : Prop where
  waiting : world.openIds =
    Answers.effective world.openIds
        (world.returning.map ResponseDatagram.parentRequestId) ++
      (world.responder.responderOrder ++
        world.undecided.map PendingSend.parentRequestId)
  distinct : world.openIds.Nodup
  inflight : ∀ requestId, requestId ∈ world.openIds ↔
    world.requester.requesterInflight requestId ≠ none
  wrIds : ∀ wr ∈ (ledger world.trace).opened, ∀ inflight,
    world.requester.requesterInflight wr.requestId = some inflight →
      inflight.wrId = wr.wqe.header.wrId
  order : ∀ requestId, requestId ∈ world.responder.responderOrder ↔
    world.responder.responderInflight requestId ≠ none
  serials : (ledger world.trace).completed.map CompletedWr.serial ++
    (ledger world.trace).opened.map OpenWr.serial =
      List.range (ledger world.trace).started
  wqes : (ledger world.trace).completed.map CompletedWr.wqe ++
    (ledger world.trace).opened.map OpenWr.wqe = world.started
  entries : ∀ wr ∈ (ledger world.trace).completed, ∀ entry, wr.entry = some entry →
    entry.wrId = wr.wqe.header.wrId
  published : world.ownCompletions =
    (ledger world.trace).completed.filterMap CompletedWr.entry

/-- A later datagram of a refused parent belongs to no parent that is not looked up. -/
theorem Agreed.undecided_of_refused (agreed : Agreed world) {position : Position}
    (describes : position.Describes world) {request : RequestDatagram}
    (pending : world.responder.pendingRequest = some request)
    (absent : world.responder.responderInflight request.parentRequestId = none)
    (invalid : validFirst request = false) :
    request.parentRequestId ∉ world.undecided.map PendingSend.parentRequestId := by
  obtain ⟨current, status, rest, worked, -, leaves, -⟩ :=
    agreed.later_of_absent describes pending absent invalid
  obtain ⟨split, -⟩ := describes.current current worked
  have carries := PendingSend.carries_of_mem (by rw [split, leaves]; simp :
    request ∈ current.parent.datagrams world.requester.payloadBytes)
  have distinct := describes.distinct
  rw [Position.opened, worked] at distinct
  rw [describes.undecided, carries.parentRequestId]
  exact (List.nodup_cons.mp distinct).1

namespace InOrder

theorem completionsInOrder (inOrder : InOrder world) (queue : QueueAccounted world) :
    CompletionsInOrder world := by
  refine ⟨?_, ?_, inOrder.entries, inOrder.published⟩
  · have listed : (ledger world.trace).completed.map CompletedWr.serial <+:
        List.range (ledger world.trace).started := by
      rw [← inOrder.serials]
      exact List.prefix_append _ _
    have short := listed.length_le
    rw [List.length_map, List.length_range] at short
    rw [List.prefix_iff_eq_take.mp listed, List.length_map, List.take_range,
      Nat.min_eq_left short]
  · have started : world.started <+: world.posted := by
      rw [queue.posted]
      cases pending : world.requester.pendingSend with
      | none =>
          rw [queue.idle pending]
          exact List.prefix_append _ _
      | some parent =>
          obtain ⟨-, wqe, rest, items, started⟩ := queue.busy parent pending
          rw [started, items]
          exact ⟨rest, by simp⟩
    refine List.IsPrefix.trans ?_ started
    rw [← inOrder.wqes]
    exact List.prefix_append _ _

/-- An id of an undecided parent or of one in `responder_order_` has no response on its
way. -/
theorem unanswered (inOrder : InOrder world) {requestId : Nat}
    (member : requestId ∈ world.responder.responderOrder ++
      world.undecided.map PendingSend.parentRequestId) :
    requestId ∈ world.openIds ∧
      requestId ∉ world.returning.map ResponseDatagram.parentRequestId := by
  have waits : requestId ∈ world.openIds := by
    rw [inOrder.waiting]
    exact List.mem_append_right _ member
  refine ⟨waits, fun answered => ?_⟩
  have distinct := inOrder.distinct
  rw [inOrder.waiting] at distinct
  exact (List.nodup_append.mp distinct).2.2 requestId
    ((Answers.mem_effective inOrder.distinct).mpr ⟨waits, answered⟩) requestId member rfl

/-- A step that starts and completes no WR. -/
theorem of_same_ledger (inOrder : InOrder world)
    (same : ledger next.trace = ledger world.trace) (started : next.started = world.started)
    (published : next.ownCompletions = world.ownCompletions)
    (requesterInflight : next.requester.requesterInflight = world.requester.requesterInflight)
    (waiting : world.openIds =
      Answers.effective world.openIds
          (next.returning.map ResponseDatagram.parentRequestId) ++
        (next.responder.responderOrder ++ next.undecided.map PendingSend.parentRequestId))
    (order : ∀ requestId, requestId ∈ next.responder.responderOrder ↔
      next.responder.responderInflight requestId ≠ none) : InOrder next := by
  have ids : next.openIds = world.openIds := by rw [World.openIds, same, World.openIds]
  constructor
  · rw [ids]
    exact waiting
  · rw [ids]
    exact inOrder.distinct
  · rw [ids, requesterInflight]
    exact inOrder.inflight
  · rw [same, requesterInflight]
    exact inOrder.wrIds
  · exact order
  · rw [same]
    exact inOrder.serials
  · rw [same, started]
    exact inOrder.wqes
  · rw [same]
    exact inOrder.entries
  · rw [same, published]
    exact inOrder.published

/-! ## Steps -/

/-- A parent is issued under an id that nothing is in flight under. -/
theorem issue (inOrder : InOrder world) {service : QpService} {view : WorkerQpView}
    {wqe : SendWqe} {parent : PendingSend}
    (trace : next.trace = world.trace ++ [.issued service view wqe parent])
    (wrId : parent.wrId = wqe.header.wrId)
    (quiet : Quiet world parent.parentRequestId)
    (absent : world.requester.requesterInflight parent.parentRequestId = none)
    (requesterInflight : next.requester.requesterInflight =
      Function.update world.requester.requesterInflight parent.parentRequestId
        (some parent.inflight))
    (responder : next.responder = world.responder)
    (returning : next.returning = world.returning)
    (undecided : next.undecided = world.undecided ++ [parent]) : InOrder next := by
  have same : ledger next.trace = (ledger world.trace).step
      (.issued service view wqe parent) := by
    rw [trace, ledger_concat]
  have ids : next.openIds = world.openIds ++ [parent.parentRequestId] := by
    simp [World.openIds, same]
  have unused : parent.parentRequestId ∉ world.openIds := by
    rw [inOrder.inflight]
    exact fun found => found absent
  have unanswered : parent.parentRequestId ∉
      world.returning.map ResponseDatagram.parentRequestId := by
    intro answered
    obtain ⟨response, member, own⟩ := List.mem_map.mp answered
    exact quiet.returning response member own
  constructor
  · rw [ids, returning, responder, undecided, Answers.effective_waiting_concat unanswered,
      List.map_append, ← List.append_assoc, ← List.append_assoc]
    congr 1
    rw [List.append_assoc]
    exact inOrder.waiting
  · rw [ids, ← List.concat_eq_append]
    exact inOrder.distinct.concat unused
  · intro requestId
    rw [ids, requesterInflight]
    by_cases own : requestId = parent.parentRequestId
    · simp [own]
    · simpa [own] using inOrder.inflight requestId
  · rw [same, requesterInflight]
    intro wr member inflight found
    rcases List.mem_append.mp member with member | member
    · have different : wr.requestId ≠ parent.parentRequestId := by
        intro own
        exact unused (own ▸ List.mem_map_of_mem member)
      rw [Function.update_of_ne different] at found
      exact inOrder.wrIds wr member inflight found
    · rw [List.mem_singleton.mp member, Function.update_self] at found
      injection found with found
      rw [List.mem_singleton.mp member, ← found]
      exact wrId
  · rw [responder]
    exact inOrder.order
  · simp only [same, Ledger.step, List.map_append, List.map_singleton]
    rw [← List.append_assoc, inOrder.serials, List.range_succ]
  · have started : next.started = world.started ++ [wqe] := by simp [World.started, trace]
    simp only [same, Ledger.step, List.map_append, List.map_singleton]
    rw [← List.append_assoc, inOrder.wqes, started]
  · rw [same]
    exact inOrder.entries
  · simpa [World.ownCompletions, trace, same] using inOrder.published

/-- A WR fails while no other is in flight. -/
theorem fail (inOrder : InOrder world) {wqe : SendWqe} {entry : CompletionEntry}
    (trace : next.trace = world.trace ++ [.failed wqe entry])
    (wrId : entry.wrId = wqe.header.wrId)
    (responses : ResponsesAccounted world)
    (idle : ∀ parent ∈ world.issued,
      world.requester.requesterInflight parent.parentRequestId = none)
    (requester : next.requester = world.requester)
    (responder : next.responder = world.responder)
    (returning : next.returning = world.returning)
    (undecided : next.undecided = world.undecided) : InOrder next := by
  have same : ledger next.trace = (ledger world.trace).step (.failed wqe entry) := by
    rw [trace, ledger_concat]
  have ids : next.openIds = world.openIds := by simp [World.openIds, same]
  have none : (ledger world.trace).opened = [] := by
    have empty : world.openIds = [] := by
      refine List.eq_nil_iff_forall_not_mem.mpr fun requestId member => ?_
      have present := (inOrder.inflight requestId).mp member
      rw [responses.inflight] at present
      obtain ⟨parent, opened⟩ := Option.ne_none_iff_exists'.mp
        (mt Option.map_eq_none_iff.mpr present)
      obtain ⟨issued, own⟩ :=
        mem_issued_of_progress (progress_parent_of_open requestId world.trace opened)
      have absent := idle parent issued
      rw [own, responses.inflight, opened] at absent
      cases absent
    exact List.map_eq_nil_iff.mp empty
  constructor
  · rw [ids, returning, responder, undecided]
    exact inOrder.waiting
  · rw [ids]
    exact inOrder.distinct
  · rw [ids, requester]
    exact inOrder.inflight
  · rw [same, requester]
    exact inOrder.wrIds
  · rw [responder]
    exact inOrder.order
  · have serials := inOrder.serials
    simp only [none, List.map_nil, List.append_nil] at serials
    simp only [same, Ledger.step, none, List.map_append, List.map_singleton, List.map_nil,
      List.append_nil]
    rw [serials, List.range_succ]
  · have wqes := inOrder.wqes
    have started : next.started = world.started ++ [wqe] := by simp [World.started, trace]
    simp only [none, List.map_nil, List.append_nil] at wqes
    simp only [same, Ledger.step, none, List.map_append, List.map_singleton, List.map_nil,
      List.append_nil]
    rw [wqes, started]
  · rw [same]
    intro wr member published present
    rcases List.mem_append.mp member with member | member
    · exact inOrder.entries wr member published present
    · rw [List.mem_singleton.mp member] at present ⊢
      injection present with present
      rw [← present]
      exact wrId
  · have published := inOrder.published
    simp only [World.ownCompletions] at published
    simp [World.ownCompletions, trace, published]

/-- A response completes the parent that waits longest. -/
theorem answer (inOrder : InOrder world) {response : ResponseDatagram}
    {inflight : RequesterInflight} {answer : Answer}
    (trace : next.trace = world.trace ++ [.consumed response (some answer)])
    (found : world.requester.requesterInflight response.parentRequestId = some inflight)
    (wrId : ∀ entry, answer.completion = some entry → entry.wrId = inflight.wrId)
    (requesterInflight : next.requester.requesterInflight =
      Function.update world.requester.requesterInflight response.parentRequestId none)
    (responder : next.responder = world.responder)
    (returning : world.returning = response :: next.returning)
    (undecided : next.undecided = world.undecided) : InOrder next := by
  have waits : response.parentRequestId ∈ world.openIds := by
    rw [inOrder.inflight, found]
    nofun
  have waiting := inOrder.waiting
  rw [returning, List.map_cons, Answers.effective_cons_of_mem waits, List.cons_append] at waiting
  obtain ⟨wr, rest, opened, own, others⟩ := List.map_eq_cons_iff.mp waiting
  have distinct := inOrder.distinct
  have ids : world.openIds = response.parentRequestId :: rest.map OpenWr.requestId := by
    rw [World.openIds, opened, List.map_cons, own]
  rw [ids] at distinct others
  rw [List.erase_cons_head] at others
  obtain ⟨unused, distinct⟩ := List.nodup_cons.mp distinct
  have same : ledger next.trace =
      { ledger world.trace with
        opened := rest
        completed := (ledger world.trace).completed ++
          [⟨wr.serial, wr.wqe, answer.completion⟩] } := by
    simp [trace, opened, own]
  have remaining : next.openIds = rest.map OpenWr.requestId := by rw [World.openIds, same]
  constructor
  · rw [remaining, responder, undecided]
    exact others
  · rw [remaining]
    exact distinct
  · intro requestId
    rw [remaining, requesterInflight]
    by_cases equal : requestId = response.parentRequestId
    · simpa [equal] using unused
    · have before := inOrder.inflight requestId
      rw [ids, List.mem_cons] at before
      simpa [equal] using before
  · rw [same, requesterInflight]
    intro other member stored present
    have different : other.requestId ≠ response.parentRequestId := by
      intro equal
      exact unused (equal ▸ List.mem_map_of_mem member)
    rw [Function.update_of_ne different] at present
    exact inOrder.wrIds other (by rw [opened]; exact List.mem_cons_of_mem _ member) stored
      present
  · rw [responder]
    exact inOrder.order
  · have serials := inOrder.serials
    rw [opened] at serials
    simpa [same] using serials
  · have wqes := inOrder.wqes
    have started : next.started = world.started := by simp [World.started, trace]
    rw [opened] at wqes
    rw [started]
    simpa [same] using wqes
  · rw [same]
    intro other member entry present
    rcases List.mem_append.mp member with member | member
    · exact inOrder.entries other member entry present
    · rw [List.mem_singleton.mp member] at present ⊢
      rw [wrId entry present]
      refine inOrder.wrIds wr (by rw [opened]; exact List.mem_cons_self) inflight ?_
      rw [own]
      exact found
  · have published := inOrder.published
    simp only [World.ownCompletions] at published
    rw [same, World.ownCompletions, trace, List.filterMap_append, published]
    cases completion : answer.completion <;> simp [completion]

theorem sender (inOrder : InOrder world) (agreed : Agreed world)
    (orderly : ∀ world event, permitted world event → Orderly world event)
    (transition : SenderTransition permitted world next) : InOrder next := by
  have frame := transition.responderFrame
  have decisions : next.decisions = world.decisions :=
    frame.filterMap fun event own => by cases event <;> first | rfl | cases own
  have keeps : next.issued = world.issued → next.undecided = world.undecided := by
    intro issued
    rw [World.undecided, issued, decisions, World.undecided]
  cases transition with
  | post | pollSend | foreignSend | collide | push =>
      refine inOrder.of_same_ledger (by simp) (by simp [World.started])
        (by simp [World.ownCompletions]) rfl ?_ inOrder.order
      rw [keeps (by simp [World.issued])]
      exact inOrder.waiting
  | pushLast parent pending =>
      obtain ⟨-, wqe, rest, items, -⟩ := agreed.accounted.queue.busy parent pending
      refine inOrder.of_same_ledger (by simp [items, ledger_append])
        (by simp [World.started, items]) (by simp [World.ownCompletions, items]) rfl ?_
        inOrder.order
      rw [keeps (by simp [World.issued, items])]
      exact inOrder.waiting
  | loadResponse response rest idle responses =>
      refine inOrder.of_same_ledger rfl rfl rfl rfl ?_ inOrder.order
      have waiting := inOrder.waiting
      rw [World.returning, idle, responses] at waiting
      rw [keeps rfl]
      exact waiting
  | ignore response pending absent =>
      refine inOrder.of_same_ledger (by simp) (by simp [World.started])
        (by simp [World.ownCompletions]) rfl ?_ inOrder.order
      have unknown : response.parentRequestId ∉ world.openIds := by
        rw [inOrder.inflight]
        exact fun found => found absent
      have waiting := inOrder.waiting
      rw [World.returning, pending, Option.toList_some, List.singleton_append, List.map_cons,
        Answers.effective_cons_of_not_mem unknown] at waiting
      rw [keeps (by simp [World.issued])]
      exact waiting
  | fail service view wqe rest status idle peeked items inspected qpNum allowed =>
      exact inOrder.fail rfl rfl agreed.accounted.responses (orderly _ _ allowed) rfl rfl rfl
        (keeps (by simp [World.issued]))
  | issue service view wqe rest gathered parent idle peeked items inspected built qpNum absent
      allowed =>
      obtain ⟨position, describes⟩ := agreed.position
      refine inOrder.issue rfl ?_ (orderly _ _ allowed).2 absent rfl rfl rfl
        (describes.undecided_concat parent (by simp [World.issued]) decisions)
      rw [built]
      rfl
  | answer response inflight answer pending found answered =>
      refine inOrder.answer rfl found ?_ rfl rfl ?_ (keeps (by simp [World.issued]))
      · intro entry completion
        rw [answered] at completion
        simp only [Option.ite_none_right_eq_some, Option.some.injEq] at completion
        rw [← completion.2]
        rfl
      · simp [World.returning, pending]

/-- An answer is appended for the parent that waits longest among those that are not
answered. -/
theorem effective_returning (inOrder : InOrder world) {requestId : Nat}
    (member : requestId ∈ world.responder.responderOrder ++
      world.undecided.map PendingSend.parentRequestId) :
    Answers.effective world.openIds
        (world.returning.map ResponseDatagram.parentRequestId ++ [requestId]) =
      Answers.effective world.openIds
          (world.returning.map ResponseDatagram.parentRequestId) ++ [requestId] := by
  rw [Answers.effective_concat inOrder.distinct, if_pos (inOrder.unanswered member)]

theorem order_nodup (inOrder : InOrder world) : world.responder.responderOrder.Nodup := by
  have distinct := inOrder.distinct
  rw [inOrder.waiting] at distinct
  exact (List.nodup_append.mp (List.nodup_append.mp distinct).2.1).1

theorem responder_order (inOrder : InOrder world)
    (transition : ResponderTransition permitted world next) (requestId : Nat) :
    requestId ∈ next.responder.responderOrder ↔
      next.responder.responderInflight requestId ≠ none := by
  have stored : ∀ key inflight other,
      world.responder.responderInflight key = some inflight →
      (requestId ∈ world.responder.responderOrder ↔
        Function.update world.responder.responderInflight key (some other) requestId ≠ none) := by
    intro key inflight other found
    rw [inOrder.order]
    by_cases own : requestId = key
    · simp [own, found]
    · simp [own]
  cases transition with
  | receiveQueue | pollReceive | foreignReceive | loadRequest | reject | flush | popUnknown
  | deliver | take => exact inOrder.order requestId
  | invalidPayload request parent pending addressed found => exact stored _ _ _ found
  | zeroPayload request parent consumed receiveQueue pending found =>
      exact stored _ _ _ found
  | accept request parent consumed receiveQueue pending found => exact stored _ _ _ found
  | pop start completion earlier parent trace found => exact stored _ _ _ found
  | admitted service view request target receive receiveQueue pending addressed absent =>
      dsimp only
      rw [List.mem_append, inOrder.order, List.mem_singleton]
      by_cases own : requestId = request.parentRequestId
      · simp [own]
      · simp [own]
  | dropOrder first order head absent =>
      have kept := inOrder.order first
      rw [head, absent] at kept
      exact absurd rfl (kept.mp List.mem_cons_self)
  | retire view first order parent receive head found =>
      have distinct := inOrder.order_nodup
      have kept := inOrder.order requestId
      rw [head] at distinct kept
      by_cases own : requestId = first
      · simpa [own] using (List.nodup_cons.mp distinct).1
      · simpa [own] using kept

theorem responder_waiting (inOrder : InOrder world) (agreed : Agreed world)
    (orderly : ∀ world event, permitted world event → Orderly world event)
    (transition : ResponderTransition permitted world next) :
    world.openIds =
      Answers.effective world.openIds
          (next.returning.map ResponseDatagram.parentRequestId) ++
        (next.responder.responderOrder ++
          next.undecided.map PendingSend.parentRequestId) := by
  obtain ⟨position, describes⟩ := agreed.position
  have frame := transition.senderFrame
  have issued : next.issued = world.issued :=
    frame.filterMap fun event foreign => by cases event <;> first | rfl | cases foreign
  have keeps : next.decisions = world.decisions → next.undecided = world.undecided := by
    intro decisions
    rw [World.undecided, issued, decisions, World.undecided]
  have looksUp : ∀ decided, next.decisions = world.decisions ++ [decided] →
      next.undecided = world.undecided.tail := by
    intro decided decisions
    rw [World.undecided, issued, decisions, List.length_append, List.length_singleton,
      ← List.drop_drop, List.drop_one, World.undecided]
  have waiting := inOrder.waiting
  cases transition with
  | receiveQueue | pollReceive | foreignReceive | loadRequest | popUnknown | pop
  | zeroPayload | accept =>
      rw [keeps (by simp [World.decisions])]
      exact waiting
  | flush accepted =>
      have decisions : (world.trace ++ (world.responder.pendingBackendRequests.take
          accepted).map Event.accepted).filterMap Event.resolved? = world.decisions := by
        rw [List.filterMap_append, filterMap_accepted fun _ => rfl, List.append_nil,
          World.decisions]
      rw [keeps decisions]
      exact waiting
  | deliver response allowed => exact (orderly _ _ allowed).elim
  | take request rest requests allowed => exact (orderly _ _ allowed).elim
  | invalidPayload request inflight pending addressed found invalid =>
      obtain ⟨-, -, -, -, -, -, -, -, -, valid⟩ := agreed.next_of_found describes pending found
      rw [invalid] at valid
      cases valid
  | dropOrder first order head absent =>
      have kept := inOrder.order first
      rw [head, absent] at kept
      exact absurd rfl (kept.mp List.mem_cons_self)
  | admitted service view request target receive receiveQueue pending addressed absent valid =>
      obtain ⟨-, parent, rest, -, waits, same, -⟩ :=
        agreed.first_of_absent describes pending absent valid
      have own := (PendingSend.carries_datagram world.requester.payloadBytes parent).1
      rw [← same] at own
      rw [looksUp _ (by simp [World.decisions]; rfl), describes.undecided, waits,
        List.tail_cons]
      rw [describes.undecided, waits, List.map_cons, ← own] at waiting
      simpa [World.returning] using waiting
  | retire view requestId order inflight receive head found =>
      have member : requestId ∈ world.responder.responderOrder ++
          world.undecided.map PendingSend.parentRequestId := by
        rw [head]
        exact List.mem_cons_self
      rw [World.returning_concat, inOrder.effective_returning member,
        keeps (by cases receive <;> simp [World.decisions, List.filterMap_cons])]
      rw [head] at waiting
      simpa using waiting
  | reject start request result disposal resolution pending reason order allowed =>
      rw [World.returning_concat]
      cases reason with
      | target misaddressed => exact absurd (agreed.pending_addressed pending) misaddressed
      | first addressed absent invalid =>
          have answered : ¬(request.parentRequestId ∈ world.openIds ∧
              request.parentRequestId ∉
                world.returning.map ResponseDatagram.parentRequestId) := by
            rintro ⟨waits, unanswered⟩
            rw [inOrder.waiting] at waits
            rcases List.mem_append.mp waits with member | member
            · exact unanswered ((Answers.mem_effective inOrder.distinct).mp member).2
            · rcases List.mem_append.mp member with member | member
              · exact (inOrder.order _).mp member absent
              · exact agreed.undecided_of_refused describes pending absent invalid member
          rw [keeps (by simp [World.decisions, List.filterMap_cons]),
            Answers.effective_concat inOrder.distinct, if_neg answered, List.append_nil]
          exact waiting
      | access service view status addressed absent valid resolved =>
          obtain ⟨-, parent, rest, -, waits, same, -⟩ :=
            agreed.first_of_absent describes pending absent valid
          have own := (PendingSend.carries_datagram world.requester.payloadBytes parent).1
          rw [← same] at own
          -- The condition on refused requests: no earlier parent waits for the backend.
          have none : world.responder.responderOrder = [] := by
            rw [← order]
            exact orderly _ _ allowed
          have member : request.parentRequestId ∈ world.responder.responderOrder ++
              world.undecided.map PendingSend.parentRequestId := by
            rw [describes.undecided, waits, List.map_cons, ← own]
            exact List.mem_append_right _ List.mem_cons_self
          rw [looksUp _ (by simp [World.decisions, List.filterMap_cons]; rfl),
            describes.undecided, waits, List.tail_cons, none, inOrder.effective_returning member]
          rw [describes.undecided, waits, List.map_cons, ← own, none] at waiting
          simpa using waiting

theorem responder (inOrder : InOrder world) (agreed : Agreed world)
    (orderly : ∀ world event, permitted world event → Orderly world event)
    (transition : ResponderTransition permitted world next) : InOrder next := by
  have frame := transition.senderFrame
  obtain ⟨events, trace, foreign⟩ := frame.trace
  refine inOrder.of_same_ledger ?_ ?_ ?_ ?_ (inOrder.responder_waiting agreed orderly transition)
    (inOrder.responder_order transition)
  · rw [trace, ledger_append_of_foreign foreign]
  · exact frame.filterMap fun event foreign => by cases event <;> first | rfl | cases foreign
  · exact frame.filterMap fun event foreign => by cases event <;> first | rfl | cases foreign
  · rw [frame.requester]

end InOrder

/-! ## Runs -/

/-- In every run in which errors that are completed at once find no earlier WR in flight,
the send completions keep the posting order. -/
theorem completions_in_order {configuration : World.Configuration} {actions : List Action}
    (admissible : Execution.Along World.step (Admissible Orderly)
      (World.initial configuration) actions) :
    CompletionsInOrder
      (Execution.run World.step (World.initial configuration) actions) := by
  obtain ⟨agreed, inOrder⟩ := @run_invariant _ (fun world => Agreed world ∧ InOrder world)
    (fun _ _ transition ⟨agreed, inOrder⟩ =>
      ⟨agreed.transition (fun _ _ orderly => orderly.paired) transition,
        transition.elim (inOrder.sender agreed fun _ _ orderly => orderly)
          (inOrder.responder agreed fun _ _ orderly => orderly)⟩)
    _ ⟨Agreed.initial configuration, rfl, List.nodup_nil, by simp [World.openIds, ledger,
      World.initial, LoopWorker.create], nofun, by simp [World.initial, LoopWorker.create], rfl,
      rfl, nofun, rfl⟩ _ admissible
  exact inOrder.completionsInOrder agreed.accounted.queue

instance (world : World) : DecidablePred (Orderly world)
  | .issued _ view _ parent =>
      inferInstanceAs (Decidable (view.peerQpNum = world.responder.qpNum ∧
        Quiet world parent.parentRequestId))
  | .failed _ _ =>
      inferInstanceAs (Decidable (∀ parent ∈ world.issued,
        world.requester.requesterInflight parent.parentRequestId = none))
  | .disposed _ .accessError =>
      inferInstanceAs (Decidable (world.responder.responderOrder = []))
  | .delivered _ | .taken _ => inferInstanceAs (Decidable False)
  | .disposed _ .invalidTarget | .disposed _ .invalidFirst | .disposed _ .zeroPayload
  | .disposed _ (.backendRequest _) | .posted _ | .sent _ | .released _ | .consumed _ _
  | .resolved _ _ _ | .invalidPayload _ | .accepted _ | .popped _ | .responded _
  | .received _ _ | .polledSend _ | .polledReceive _ | .foreignSend _ | .foreignReceive _ =>
      inferInstanceAs (Decidable True)

namespace Loopback

open Ugdr.Control.Loopback

/-- A write whose local key does not exist. -/
def badKeyWrite : SendWqe where
  header := { wrId := 7, opcode := wrRdmaWrite, sgeCount := 1, remoteAddress := 4096, rkey := 2 }
  sges := fun _ => { address := 4096, length := 8, lkey := 3 }
  length_lt := fun _ => eight_lt

end Loopback

/-- A copied write, a write that fails and one that the responder refuses. -/
def spacedErrors : List Action :=
  Loopback.completedWrite ++
    [.postSend Loopback.badKeyWrite, .trySend Loopback.service] ++ Loopback.refusedWrite

theorem completions_in_order_spacedErrors :
    (ledger (Execution.run World.step (World.initial Loopback.configuration)
        spacedErrors).trace).completed.length = 3 ∧
      CompletionsInOrder (Execution.run World.step (World.initial Loopback.configuration)
        spacedErrors) := by
  refine ⟨by decide +kernel, completions_in_order (along_admissible ?_ ?_)⟩
  · simp only [spacedErrors, Loopback.completedWrite, Loopback.refusedWrite]
    exact Loopback.actions_reachable (by simp [Action.service])
  · decide +kernel

/-- A write is on its way when the next WR fails. -/
def overtakingError : List Action :=
  [.postSend Loopback.smallWrite, .trySend Loopback.service,
    .postSend Loopback.badKeyWrite, .trySend Loopback.service]

theorem completions_out_of_order :
    ¬∀ configuration actions,
      Execution.Along World.step (Admissible Serving) (World.initial configuration) actions →
      CompletionsInOrder
        (Execution.run World.step (World.initial configuration) actions) := by
  intro claimed
  have inOrder := claimed Loopback.configuration overtakingError (along_admissible
    (by
      simp only [overtakingError]
      exact Loopback.actions_reachable (by simp [Action.service]))
    (by decide +kernel))
  have serials := inOrder.serials
  revert serials
  decide +kernel

end Ugdr.Worker
