import Ugdr.Worker.CompletionOrder

/-! # Zero-length writes

The splitter, the first-datagram check and the aggregation have branches for a parent
without payload, but `resolve_key` refuses a range of length zero. A zero-length WR with
an entry fails in `try_send`, one without entries in `try_request`, and neither is ever
completed with success.
-/

namespace Ugdr.Worker

open Ugdr.Queue Ugdr.Control
open Ugdr.Control.QpService (WorkerQpView)

variable {permitted : World → Event → Prop} {world next : World}

/-! ## Lengths -/

/-- The number of bytes that a WQE writes. -/
def SendWqe.totalLength (wqe : SendWqe) : Nat :=
  (wqe.sgeList.map SharedSge.length).sum

theorem gather_totalLength {resolve : SharedSge → Except Errno Nat} {payloadBytes : Nat}
    {start gathered : Gathered} {sges : List SharedSge}
    (collected : gather resolve payloadBytes start sges = .ok gathered) :
    gathered.totalLength = start.totalLength + (sges.map SharedSge.length).sum := by
  induction sges generalizing start with
  | nil =>
      injection collected with same
      rw [← same]
      rfl
  | cons sge sges induction =>
      rw [gather] at collected
      split at collected
      · cases collected
      · split at collected
        · cases collected
        · rw [induction collected, List.map_cons, List.sum_cons, ← Nat.add_assoc]
          rfl

theorem inspectSend_totalLength {service : QpService} {view : WorkerQpView}
    {payloadBytes : Nat} {wqe : SendWqe} {gathered : Gathered}
    (inspected : inspectSend service view payloadBytes wqe = .ok gathered) :
    gathered.totalLength = wqe.totalLength := by
  unfold inspectSend at inspected
  split at inspected
  · cases inspected
  · split at inspected
    · cases inspected
    · split at inspected
      · cases inspected
      · rename_i collected
        split at inspected
        · cases inspected
        · injection inspected with same
          rw [← same, gather_totalLength collected]
          exact Nat.zero_add _

/-! ## Completed WRs by their number -/

/-- Among items with distinct keys, erasing one leaves no other with its key. -/
theorem key_ne_of_mem_eraseP {Item : Type} {key : Item → Nat} {items : List Item}
    (distinct : (items.map key).Nodup) {erased : Nat} {item : Item}
    (member : item ∈ items.eraseP fun item => key item = erased) : key item ≠ erased := by
  induction items with
  | nil => cases member
  | cons first rest induction =>
      obtain ⟨unused, distinct⟩ := List.nodup_cons.mp distinct
      by_cases own : key first = erased
      · rw [List.eraseP_cons_of_pos (by simpa using own)] at member
        intro equal
        exact unused (own.trans equal.symm ▸ List.mem_map_of_mem member)
      · rw [List.eraseP_cons_of_neg (by simpa using own)] at member
        rcases List.mem_cons.mp member with rfl | member
        · exact own
        · exact induction distinct member

/-- No entry is published for an unsignaled success. -/
def CompletedWr.succeeded (wr : CompletedWr) : Bool :=
  match wr.entry with
  | none => true
  | some entry => entry.status = wcSuccess

/-- The completions with success of the send WR with this number in posting order. -/
def World.successes (world : World) (serial : Nat) : List CompletedWr :=
  (ledger world.trace).completed.filter fun wr => wr.serial = serial ∧ wr.succeeded

theorem getElem?_concat_of_some {Item : Type} {items : List Item} {index : Nat}
    {item last : Item} (found : items[index]? = some item) :
    (items ++ [last])[index]? = some item := by
  rw [List.getElem?_append_left (List.getElem?_eq_some_iff.mp found).1, found]

/-- The numbers in the ledger count the WRs of the queue, and a WR in flight is the parent
that is open under its request id. -/
structure Numbered (world : World) : Prop where
  started : (ledger world.trace).started = world.started.length
  completed : ∀ wr ∈ (ledger world.trace).completed, world.started[wr.serial]? = some wr.wqe
  opened : ∀ wr ∈ (ledger world.trace).opened,
    world.started[wr.serial]? = some wr.wqe ∧
      ∃ parent, openParent wr.requestId world.trace = some parent ∧
        parent.totalLength = wr.wqe.totalLength
  distinct : ((ledger world.trace).opened.map OpenWr.requestId).Nodup

namespace Numbered

/-- A step that starts and completes no WR. -/
theorem of_same_ledger (numbered : Numbered world)
    (same : ledger next.trace = ledger world.trace) (started : next.started = world.started)
    (openSame : ∀ requestId, openParent requestId next.trace =
      openParent requestId world.trace) : Numbered next := by
  constructor
  · rw [same, started]
    exact numbered.started
  · rw [same, started]
    exact numbered.completed
  · rw [same, started]
    intro wr member
    rw [openSame]
    exact numbered.opened wr member
  · rw [same]
    exact numbered.distinct

theorem fail (numbered : Numbered world) {wqe : SendWqe} {entry : CompletionEntry}
    (trace : next.trace = world.trace ++ [.failed wqe entry]) : Numbered next := by
  have same : ledger next.trace = (ledger world.trace).step (.failed wqe entry) := by
    rw [trace, ledger_concat]
  have started : next.started = world.started ++ [wqe] := by simp [World.started, trace]
  have kept : ∀ {index : Nat} {other : SendWqe}, world.started[index]? = some other →
      next.started[index]? = some other := by
    intro index other found
    rw [started]
    exact getElem?_concat_of_some found
  constructor
  · rw [same, started, List.length_append]
    exact congrArg (· + 1) numbered.started
  · rw [same]
    intro wr member
    rcases List.mem_append.mp member with member | member
    · exact kept (numbered.completed wr member)
    · rw [List.mem_singleton.mp member, numbered.started, started]
      exact List.getElem?_concat_length
  · rw [same]
    intro wr member
    obtain ⟨found, parent, opened, length⟩ := numbered.opened wr member
    refine ⟨kept found, parent, ?_, length⟩
    rw [trace, openParent_concat]
    exact opened
  · rw [same]
    exact numbered.distinct

theorem issue (numbered : Numbered world) {service : QpService} {view : WorkerQpView}
    {wqe : SendWqe} {parent : PendingSend}
    (trace : next.trace = world.trace ++ [.issued service view wqe parent])
    (length : parent.totalLength = wqe.totalLength)
    (closed : openParent parent.parentRequestId world.trace = none) : Numbered next := by
  have same : ledger next.trace = (ledger world.trace).step (.issued service view wqe parent) := by
    rw [trace, ledger_concat]
  have started : next.started = world.started ++ [wqe] := by simp [World.started, trace]
  have kept : ∀ {index : Nat} {other : SendWqe}, world.started[index]? = some other →
      next.started[index]? = some other := by
    intro index other found
    rw [started]
    exact getElem?_concat_of_some found
  have unused : ∀ wr ∈ (ledger world.trace).opened, wr.requestId ≠ parent.parentRequestId := by
    intro wr member own
    obtain ⟨-, other, opened, -⟩ := numbered.opened wr member
    rw [own, closed] at opened
    cases opened
  constructor
  · rw [same, started, List.length_append]
    exact congrArg (· + 1) numbered.started
  · rw [same]
    exact fun wr member => kept (numbered.completed wr member)
  · rw [same]
    intro wr member
    rw [trace, openParent_concat]
    rcases List.mem_append.mp member with member | member
    · obtain ⟨found, other, opened, own⟩ := numbered.opened wr member
      exact ⟨kept found, other, (if_neg (Ne.symm (unused wr member))).trans opened, own⟩
    · rw [List.mem_singleton.mp member, numbered.started, started]
      exact ⟨List.getElem?_concat_length, parent, if_pos rfl, length⟩
  · rw [same]
    simp only [Ledger.step, List.map_append, List.map_singleton]
    rw [← List.concat_eq_append]
    refine numbered.distinct.concat fun member => ?_
    obtain ⟨wr, listed, own⟩ := List.mem_map.mp member
    exact unused wr listed own

theorem answer (numbered : Numbered world) {response : ResponseDatagram} {answer : Answer}
    (trace : next.trace = world.trace ++ [.consumed response (some answer)]) :
    Numbered next := by
  have started : next.started = world.started := by simp [World.started, trace]
  have same : ledger next.trace = (ledger world.trace).step (.consumed response (some answer)) := by
    rw [trace, ledger_concat]
  cases found : (ledger world.trace).opened.find?
      (fun wr => wr.requestId = response.parentRequestId) with
  | none =>
      have unchanged : ledger next.trace = ledger world.trace := by
        rw [same]
        simp only [Ledger.step, found]
      have absent := List.find?_eq_none.mp found
      constructor
      · rw [unchanged, started]
        exact numbered.started
      · rw [unchanged, started]
        exact numbered.completed
      · rw [unchanged, started]
        intro wr member
        have different := absent wr member
        rw [decide_eq_true_eq] at different
        rw [trace, openParent_concat]
        simp only [if_neg (Ne.symm different)]
        exact numbered.opened wr member
      · rw [unchanged]
        exact numbered.distinct
  | some wr =>
      have listed := List.mem_of_find?_eq_some found
      have own : wr.requestId = response.parentRequestId := by simpa using List.find?_some found
      have moved : ledger next.trace =
          { ledger world.trace with
            opened := (ledger world.trace).opened.eraseP fun wr =>
              wr.requestId = response.parentRequestId
            completed := (ledger world.trace).completed ++
              [⟨wr.serial, wr.wqe, answer.completion⟩] } := by
        rw [same]
        simp only [Ledger.step, found]
      constructor
      · rw [moved, started]
        exact numbered.started
      · rw [moved, started]
        intro other member
        rcases List.mem_append.mp member with member | member
        · exact numbered.completed other member
        · rw [List.mem_singleton.mp member]
          exact (numbered.opened wr listed).1
      · rw [moved, started]
        intro other member
        have kept := List.mem_of_mem_eraseP member
        have different := key_ne_of_mem_eraseP numbered.distinct member
        rw [trace, openParent_concat]
        simp only [if_neg (Ne.symm different)]
        exact numbered.opened other kept
      · rw [moved]
        exact numbered.distinct.sublist (List.eraseP_sublist.map _)

theorem transition (numbered : Numbered world) (queue : QueueAccounted world)
    (responses : ResponsesAccounted world) (transition : Transition permitted world next) :
    Numbered next := by
  rcases transition with transition | transition
  case inr =>
    have frame := transition.senderFrame
    obtain ⟨events, trace, foreign⟩ := frame.trace
    refine numbered.of_same_ledger ?_ ?_ fun requestId => ?_
    · rw [trace, ledger_append_of_foreign foreign]
    · exact frame.filterMap fun event foreign => by cases event <;> first | rfl | cases foreign
    · rw [trace, openParent_append_of_foreign requestId foreign]
  cases transition with
  | post | pollSend | foreignSend | collide | push | loadResponse =>
      exact numbered.of_same_ledger (by simp) (by simp [World.started]) (by simp)
  | pushLast parent pending =>
      obtain ⟨-, wqe, rest, items, -⟩ := queue.busy parent pending
      refine numbered.of_same_ledger (by simp [items, ledger_append])
        (by simp [World.started, items]) fun requestId => ?_
      simp only [items, List.head?_cons, Option.map_some, Option.toList_some, openParent_concat]
  | ignore response pending absent =>
      have closed : openParent response.parentRequestId world.trace = none := by
        have same := responses.inflight response.parentRequestId
        rw [absent] at same
        exact Option.map_eq_none_iff.mp same.symm
      refine numbered.of_same_ledger (by simp) (by simp [World.started]) fun requestId => ?_
      rw [openParent_concat]
      by_cases own : response.parentRequestId = requestId
      · rw [← own, closed]
        exact if_pos rfl
      · exact if_neg own
  | fail => exact numbered.fail rfl
  | answer => exact numbered.answer rfl
  | issue service view wqe rest gathered parent idle peeked items inspected built qpNum absent =>
      refine numbered.issue rfl ?_ ?_
      · rw [built]
        exact inspectSend_totalLength inspected
      · have same := responses.inflight parent.parentRequestId
        rw [absent] at same
        exact Option.map_eq_none_iff.mp same.symm

end Numbered

/-! ## Refusals -/

/-- The two workers are alone on the transport and connected, and an id is issued again
only when nothing is in flight under it. -/
def Connected (world : World) : Event → Prop
  | .issued _ view _ parent =>
      view.peerQpNum = world.responder.qpNum ∧ Quiet world parent.parentRequestId
  | .delivered _ => False
  | .taken _ => False
  | _ => True

theorem Connected.paired {event : Event} (connected : Connected world event) :
    Paired world event := by
  cases event with
  | issued => exact ⟨connected.1, connected.2.fresh⟩
  | taken => exact connected
  | _ => trivial

instance (world : World) : DecidablePred (Connected world)
  | .issued _ view _ parent =>
      inferInstanceAs (Decidable (view.peerQpNum = world.responder.qpNum ∧
        Quiet world parent.parentRequestId))
  | .delivered _ | .taken _ => inferInstanceAs (Decidable False)
  | .posted _ | .failed _ _ | .sent _ | .released _ | .consumed _ _ | .resolved _ _ _
  | .disposed _ _ | .invalidPayload _ | .accepted _ | .popped _ | .responded _ | .received _ _
  | .polledSend _ | .polledReceive _ | .foreignSend _ | .foreignReceive _ =>
      inferInstanceAs (Decidable True)

/-- What the responder publishes and hands over belongs to a parent with a payload. -/
def Event.HasPayload : Event → Prop
  | .received _ entry => entry.byteLength ≠ 0
  | .disposed _ (.backendRequest request) => request.parentTotalLength ≠ 0
  | .disposed _ .zeroPayload => False
  | _ => True

structure ResponderInflight.HasPayload (inflight : ResponderInflight) : Prop where
  payloadCount : inflight.payloadCount ≠ 0
  parentTotalLength : inflight.parentTotalLength ≠ 0
  byteLength : inflight.byteLength = inflight.parentTotalLength

/-- The part of a parent that the responder does not change. -/
structure ResponderInflight.SameLength (inflight other : ResponderInflight) : Prop where
  payloadCount : other.payloadCount = inflight.payloadCount
  parentTotalLength : other.parentTotalLength = inflight.parentTotalLength
  byteLength : other.byteLength = inflight.byteLength

namespace ResponderInflight

theorem HasPayload.congr {inflight other : ResponderInflight} (payload : inflight.HasPayload)
    (same : SameLength inflight other) : other.HasPayload := by
  constructor
  · rw [same.payloadCount]
    exact payload.payloadCount
  · rw [same.parentTotalLength]
    exact payload.parentTotalLength
  · rw [same.byteLength, same.parentTotalLength]
    exact payload.byteLength

theorem sameLength_record (inflight : ResponderInflight) (completion : BackendCompletion) :
    SameLength inflight (inflight.record completion) := by
  unfold record
  split <;> exact ⟨rfl, rfl, rfl⟩

/-- A key resolves for a parent with a payload only. -/
theorem hasPayload_admitted {request : RequestDatagram} (valid : validFirst request = true)
    (nonempty : request.parentTotalLength ≠ 0) (short : request.parentTotalLength ≤ 2 ^ 32 - 1)
    (target : Nat) (receive : Option ReceiveWqeHeader) :
    (responderInflightOf request target receive).HasPayload := by
  constructor
  · intro zero
    simp only [validFirst, decide_eq_true_eq] at valid
    rcases valid.2.2 with ⟨-, empty, -⟩ | ⟨count, -⟩
    · exact nonempty empty
    · exact count zero
  · exact nonempty
  · have fits : request.parentTotalLength < 2 ^ 32 := by omega
    exact Nat.mod_eq_of_lt fits

end ResponderInflight

/-- The last parent issued under the id, with its length. -/
def Issued (world : World) (requestId length : Nat) : Prop :=
  ∃ parent, (progress requestId world.trace).parent = some parent ∧ parent.totalLength = length

theorem Issued.congr {requestId length : Nat} (last : Issued world requestId length)
    (issued : next.issued = world.issued) : Issued next requestId length := by
  obtain ⟨parent, found, same⟩ := last
  refine ⟨parent, ?_, same⟩
  rw [progress_parent] at found ⊢
  rw [show next.trace.filterMap Event.issued? = world.trace.filterMap Event.issued? from issued]
  exact found

/-- The responder keeps only parents with a payload, so only they are answered with
success, and only they publish a receive completion. -/
structure Refusing (world : World) : Prop where
  inflight : ∀ requestId inflight,
    world.responder.responderInflight requestId = some inflight →
      inflight.HasPayload ∧ Issued world requestId inflight.parentTotalLength
  returning : ∀ response ∈ world.returning, response.result = .success →
    ∃ length, length ≠ 0 ∧ Issued world response.parentRequestId length
  events : ∀ event ∈ world.trace, event.HasPayload

namespace Refusing

/-- A step that issues no parent, keeps the lengths of the parents in flight and sends no
response with success. -/
theorem of_same_issued (refusing : Refusing world) (issued : next.issued = world.issued)
    (inflight : ∀ requestId other,
      next.responder.responderInflight requestId = some other →
        ∃ inflight, world.responder.responderInflight requestId = some inflight ∧
          inflight.SameLength other)
    (returning : ∀ response ∈ next.returning, response.result = .success →
      response ∈ world.returning)
    {events : List Event} (trace : next.trace = world.trace ++ events)
    (payload : ∀ event ∈ events, event.HasPayload) : Refusing next := by
  constructor
  · intro requestId other found
    obtain ⟨earlier, stored, same⟩ := inflight requestId other found
    obtain ⟨payload, last⟩ := refusing.inflight requestId earlier stored
    rw [same.parentTotalLength]
    exact ⟨payload.congr same, last.congr issued⟩
  · intro response member success
    obtain ⟨length, nonzero, last⟩ :=
      refusing.returning response (returning response member success) success
    exact ⟨length, nonzero, last.congr issued⟩
  · rw [trace]
    intro event member
    rcases List.mem_append.mp member with member | member
    · exact refusing.events event member
    · exact payload event member

theorem hasPayload_of_bySender {event : Event} (own : event.bySender = true) :
    event.HasPayload := by
  cases event <;> trivial

theorem sender (refusing : Refusing world)
    (connected : ∀ world event, permitted world event → Connected world event)
    (transition : SenderTransition permitted world next) : Refusing next := by
  have frame := transition.responderFrame
  obtain ⟨events, trace, own⟩ := frame.trace
  have payload : ∀ event ∈ events, event.HasPayload :=
    fun event member => hasPayload_of_bySender (own event member)
  have stored : ∀ requestId other,
      next.responder.responderInflight requestId = some other →
        ∃ inflight, world.responder.responderInflight requestId = some inflight ∧
          inflight.SameLength other := by
    rw [frame.responder]
    exact fun requestId other found => ⟨other, found, rfl, rfl, rfl⟩
  cases transition with
  | post | pollSend | foreignSend | collide | fail | push =>
      exact refusing.of_same_issued (by simp [World.issued]) stored (fun _ member _ => member)
        trace payload
  | pushLast parent pending =>
      refine refusing.of_same_issued ?_ stored (fun _ member _ => member) trace payload
      cases world.sendQueue.items <;> simp [World.issued]
  | loadResponse response rest idle responses =>
      refine refusing.of_same_issued rfl stored (fun other member _ => ?_) trace payload
      simpa [World.returning, idle, responses] using member
  | ignore response pending | answer response inflight answer pending =>
      refine refusing.of_same_issued (by simp [World.issued]) stored (fun other member _ => ?_)
        trace payload
      exact List.mem_append_right _ (by simpa [World.returning] using member)
  | issue service view wqe rest gathered parent idle peeked items inspected built qpNum absent
      allowed =>
      obtain ⟨-, fresh, quiet⟩ := connected _ _ allowed
      have other : ∀ requestId length, requestId ≠ parent.parentRequestId →
          Issued world requestId length → Issued
            { world with trace := world.trace ++ [.issued service view wqe parent] }
            requestId length := by
        rintro requestId length different ⟨last, found, same⟩
        refine ⟨last, ?_, same⟩
        simpa [Ne.symm different] using found
      constructor
      · intro requestId inflight found
        have different : requestId ≠ parent.parentRequestId := by
          rintro rfl
          have same := found
          rw [fresh.responder] at same
          cases same
        obtain ⟨payload, last⟩ := refusing.inflight requestId inflight found
        exact ⟨payload, other requestId _ different last⟩
      · intro response member success
        obtain ⟨length, nonzero, last⟩ := refusing.returning response member success
        exact ⟨length, nonzero, other _ _ (quiet response member) last⟩
      · intro event member
        rcases List.mem_append.mp member with member | member
        · exact refusing.events event member
        · rw [List.mem_singleton.mp member]
          trivial

/-- The parent that the responder starts to keep is the last one issued under its id. -/
theorem issued_of_admitted (agreed : Agreed world) {request : RequestDatagram}
    (pending : world.responder.pendingRequest = some request)
    (absent : world.responder.responderInflight request.parentRequestId = none)
    (valid : validFirst request = true) :
    Issued world request.parentRequestId request.parentTotalLength := by
  obtain ⟨position, describes⟩ := agreed.position
  obtain ⟨-, parent, waiting, rest, waits, same, -⟩ :=
    agreed.first_of_absent describes pending absent valid
  have carries := PendingSend.carries_datagram world.requester.payloadBytes parent
  rw [← same] at carries
  have member : parent ∈ position.waiting := by
    rw [waits]
    exact List.mem_cons_self
  have last := describes.progress_of_opened
    (List.mem_append_right (position.current.toList.map Current.parent) member)
  rw [← carries.parentRequestId] at last
  exact ⟨parent, last, carries.parentTotalLength.symm⟩

theorem responder (refusing : Refusing world) (agreed : Agreed world)
    (connected : ∀ world event, permitted world event → Connected world event)
    (transition : ResponderTransition permitted world next) : Refusing next := by
  have frame := transition.senderFrame
  have issued : next.issued = world.issued :=
    frame.filterMap fun event foreign => by cases event <;> first | rfl | cases foreign
  have stored : ∀ key earlier later,
      world.responder.responderInflight key = some earlier → earlier.SameLength later →
        ∀ requestId other,
          Function.update world.responder.responderInflight key (some later) requestId =
              some other →
            ∃ inflight, world.responder.responderInflight requestId = some inflight ∧
              inflight.SameLength other := by
    intro key earlier later found same requestId other present
    by_cases own : requestId = key
    · subst own
      rw [Function.update_self] at present
      injection present with present
      exact ⟨earlier, found, present ▸ same⟩
    · rw [Function.update_of_ne own] at present
      exact ⟨other, present, rfl, rfl, rfl⟩
  have unchanged : ∀ requestId other,
      world.responder.responderInflight requestId = some other →
        ∃ inflight, world.responder.responderInflight requestId = some inflight ∧
          inflight.SameLength other :=
    fun requestId other found => ⟨other, found, rfl, rfl, rfl⟩
  cases transition with
  | receiveQueue | loadRequest | dropOrder =>
      exact refusing.of_same_issued issued unchanged (fun _ member _ => member)
        (List.append_nil _).symm (List.forall_mem_nil _)
  | pollReceive | foreignReceive | popUnknown =>
      exact refusing.of_same_issued issued unchanged (fun _ member _ => member) rfl
        (by simp [Event.HasPayload])
  | deliver response allowed => exact (connected _ _ allowed).elim
  | take request rest requests allowed => exact (connected _ _ allowed).elim
  | flush accepted =>
      refine refusing.of_same_issued issued unchanged (fun _ member _ => member) rfl ?_
      intro event member
      obtain ⟨request, -, rfl⟩ := List.mem_map.mp member
      trivial
  | reject start request result disposal resolution pending reason =>
      refine refusing.of_same_issued issued unchanged ?_ (List.append_assoc _ _ _) ?_
      · intro response member success
        rw [World.returning, ← List.append_assoc] at member
        refine (List.mem_append.mp member).resolve_right fun last => ?_
        rw [List.mem_singleton.mp last] at success
        cases reason <;> cases success
      · cases reason <;> simp [Event.HasPayload]
  | admitted service view request target receive receiveQueue pending addressed absent valid
      resolved =>
      have nonempty := resolveKey_length_ne_zero resolved
      constructor
      · intro requestId inflight found
        dsimp only at found
        by_cases own : requestId = request.parentRequestId
        · subst own
          rw [Function.update_self] at found
          injection found with found
          subst found
          exact ⟨ResponderInflight.hasPayload_admitted valid nonempty addressed.2 target receive,
            (issued_of_admitted agreed pending absent valid).congr issued⟩
        · rw [Function.update_of_ne own] at found
          obtain ⟨payload, last⟩ := refusing.inflight requestId inflight found
          exact ⟨payload, last.congr issued⟩
      · intro response member success
        obtain ⟨length, nonzero, last⟩ := refusing.returning response member success
        exact ⟨length, nonzero, last.congr issued⟩
      · intro event member
        rcases List.mem_append.mp member with member | member
        · exact refusing.events event member
        · rw [List.mem_singleton.mp member]
          trivial
  | invalidPayload request inflight pending addressed found =>
      exact refusing.of_same_issued issued (stored _ _ _ found ⟨rfl, rfl, rfl⟩)
        (fun _ member _ => member) rfl (by simp [Event.HasPayload])
  | zeroPayload request inflight consumed receiveQueue pending found valid zero =>
      exact absurd zero (refusing.inflight _ _ found).1.payloadCount
  | accept request inflight consumed receiveQueue pending found valid =>
      refine refusing.of_same_issued issued (stored _ _ _ found ⟨rfl, rfl, rfl⟩)
        (fun _ member _ => member) rfl ?_
      intro event member
      rw [List.mem_singleton.mp member]
      have payload := (refusing.inflight _ _ found).1
      simp only [validPayload, decide_eq_true_eq] at valid
      simp only [Event.HasPayload, backendRequestOf]
      rw [valid.2.2.2.2.2.2.1]
      exact payload.parentTotalLength
  | pop start completion earlier inflight trace found =>
      exact refusing.of_same_issued issued
        (stored _ _ _ found (inflight.sameLength_record completion))
        (fun _ member _ => member) rfl (by simp [Event.HasPayload])
  | retire view requestId order inflight receive head found submitted terminal receives =>
      obtain ⟨payload, last⟩ := refusing.inflight requestId inflight found
      constructor
      · intro other kept present
        by_cases own : other = requestId
        · simp [own] at present
        · simp only [Function.update_of_ne own] at present
          obtain ⟨payload, last⟩ := refusing.inflight other kept present
          exact ⟨payload, last.congr issued⟩
      · intro response member success
        rw [World.returning, ← List.append_assoc] at member
        rcases List.mem_append.mp member with member | member
        · obtain ⟨length, nonzero, last⟩ := refusing.returning response member success
          exact ⟨length, nonzero, last.congr issued⟩
        · rw [List.mem_singleton.mp member]
          exact ⟨_, payload.parentTotalLength, last.congr issued⟩
      · intro event member
        rw [List.append_assoc] at member
        rcases List.mem_append.mp member with member | member
        · exact refusing.events event member
        · rcases List.mem_append.mp member with member | member
          · rw [List.mem_singleton.mp member]
            trivial
          · obtain ⟨entry, listed, rfl⟩ := List.mem_map.mp member
            rw [receives] at listed
            split at listed
            · rw [List.mem_singleton.mp listed]
              simp only [Event.HasPayload, receiveEntry]
              rw [payload.byteLength]
              exact payload.parentTotalLength
            · cases listed

end Refusing

/-! ## Completions of zero-length writes -/

/-- No WR without payload is completed with success. -/
structure NoEmptySuccess (world : World) : Prop where
  completed : ∀ wr ∈ (ledger world.trace).completed, wr.wqe.totalLength = 0 →
    wr.succeeded = false
  observed : ∀ response answer event, .consumed response (some answer) ∈ world.trace →
    answer.observed = some event → event.logicalBytes = 0 → event.result ≠ .success

theorem completionStatus_ne_success {result : DatagramResult} (failed : result ≠ .success) :
    completionStatus result ≠ wcSuccess := by
  cases result with
  | success => exact absurd rfl failed
  | _ => decide

namespace NoEmptySuccess

/-- A step that completes no WR. -/
theorem of_same_completed (failing : NoEmptySuccess world)
    (completed : (ledger next.trace).completed = (ledger world.trace).completed)
    {events : List Event} (trace : next.trace = world.trace ++ events)
    (quiet : ∀ response answer, .consumed response (some answer) ∉ events) :
    NoEmptySuccess next := by
  constructor
  · rw [completed]
    exact failing.completed
  · rw [trace]
    intro response answer event member
    rcases List.mem_append.mp member with member | member
    · exact failing.observed response answer event member
    · exact absurd member (quiet response answer)

/-- An empty parent is answered with an error. -/
theorem answer (failing : NoEmptySuccess world) (numbered : Numbered world)
    (refusing : Refusing world) (responses : ResponsesAccounted world)
    {response : ResponseDatagram} {inflight : RequesterInflight} {answer : Answer}
    (pending : world.requester.pendingResponse = some response)
    (found : world.requester.requesterInflight response.parentRequestId = some inflight)
    (failure : response.result ≠ .success →
      answer.completion = some (sendCompletion inflight.wrId world.requester.qpNum response.result))
    (observed : ∀ event, answer.observed = some event →
      event.logicalBytes = inflight.logicalBytes ∧ event.result = response.result)
    (trace : next.trace = world.trace ++ [.consumed response (some answer)]) :
    NoEmptySuccess next := by
  obtain ⟨parent, opened, same⟩ :
      ∃ parent, openParent response.parentRequestId world.trace = some parent ∧
        parent.inflight = inflight := by
    have accounted := responses.inflight response.parentRequestId
    rw [found] at accounted
    exact Option.map_eq_some_iff.mp accounted.symm
  have nonempty : response.result = .success → parent.totalLength ≠ 0 := by
    intro success
    have member : response ∈ world.returning := by
      rw [World.returning, pending]
      exact List.mem_append_left _ List.mem_cons_self
    obtain ⟨length, nonzero, last, issued, own⟩ := refusing.returning response member success
    rw [progress_parent_of_open _ _ opened] at issued
    injection issued with issued
    rw [issued, own]
    exact nonzero
  constructor
  · rw [trace, ledger_concat]
    intro wr member empty
    rw [Ledger.step] at member
    split at member
    · exact failing.completed wr member empty
    · rename_i answered found
      rcases List.mem_append.mp member with member | member
      · exact failing.completed wr member empty
      · have own : answered.requestId = response.parentRequestId := by
          simpa using List.find?_some found
        obtain ⟨-, other, stored, length⟩ :=
          numbered.opened answered (List.mem_of_find?_eq_some found)
        rw [own, opened] at stored
        injection stored with stored
        rw [List.mem_singleton.mp member] at empty ⊢
        have failed : response.result ≠ .success := by
          intro success
          refine nonempty success ?_
          rw [stored, length]
          exact empty
        rw [CompletedWr.succeeded, failure failed]
        exact decide_eq_false (completionStatus_ne_success failed)
  · rw [trace]
    intro other given event member observes empty
    rcases List.mem_append.mp member with member | member
    · exact failing.observed other given event member observes empty
    · injection List.mem_singleton.mp member with sameResponse sameAnswer
      injection sameAnswer with sameAnswer
      rw [sameAnswer] at observes
      obtain ⟨bytes, result⟩ := observed event observes
      rw [result]
      intro success
      refine nonempty success ?_
      rw [bytes, ← same] at empty
      exact empty

theorem transition (failing : NoEmptySuccess world) (numbered : Numbered world)
    (refusing : Refusing world) (accounted : SendWrsAccounted world)
    (transition : Transition permitted world next) : NoEmptySuccess next := by
  rcases transition with transition | transition
  case inr =>
    obtain ⟨events, trace, foreign⟩ := transition.senderFrame.trace
    refine failing.of_same_completed ?_ trace fun response answer member => ?_
    · rw [trace, ledger_append_of_foreign foreign]
    · cases foreign _ member
  cases transition with
  | collide | loadResponse =>
      exact failing.of_same_completed rfl (List.append_nil _).symm nofun
  | post | pollSend | foreignSend | push | issue | ignore =>
      exact failing.of_same_completed (by simp) rfl (by simp)
  | pushLast parent pending =>
      obtain ⟨-, wqe, rest, items, -⟩ := accounted.queue.busy parent pending
      exact failing.of_same_completed (by simp [items, ledger_append]) (List.append_assoc _ _ _)
        (by simp [items])
  | fail service view wqe rest status idle peeked items inspected =>
      constructor
      · intro wr member empty
        rw [ledger_concat] at member
        rcases List.mem_append.mp member with member | member
        · exact failing.completed wr member empty
        · rw [List.mem_singleton.mp member]
          exact decide_eq_false (inspectSend_error_ne_success inspected)
      · simpa using failing.observed
  | answer response inflight answer pending found answered =>
      refine failing.answer numbered refusing accounted.responses pending found ?_ ?_ rfl
      · intro failed
        rw [answered]
        exact if_pos (Or.inl failed)
      · intro event observes
        rw [answered] at observes
        simp only [Option.ite_none_right_eq_some, Option.some.injEq] at observes
        rw [← observes.2]
        exact ⟨rfl, rfl⟩

end NoEmptySuccess

/-! ## Runs -/

/-- No zero-length send WR is completed with success, nothing is copied for one, and no
receive completion is published for one. -/
structure ZeroLengthRefused (world : World) : Prop where
  successes : ∀ serial wqe, world.posted[serial]? = some wqe → wqe.totalLength = 0 →
    world.successes serial = []
  observed : ∀ response answer event, .consumed response (some answer) ∈ world.trace →
    answer.observed = some event → event.logicalBytes = 0 → event.result ≠ .success
  created : ∀ request ∈ world.created, request.parentTotalLength ≠ 0
  received : ∀ requestId entry, .received requestId entry ∈ world.trace → entry.byteLength ≠ 0

theorem NoEmptySuccess.zeroLengthRefused (failing : NoEmptySuccess world)
    (numbered : Numbered world) (refusing : Refusing world) (queue : QueueAccounted world) :
    ZeroLengthRefused world := by
  constructor
  · intro serial wqe posted empty
    have started : world.started <+: world.posted := by
      rw [queue.posted]
      cases pending : world.requester.pendingSend with
      | none =>
          rw [queue.idle pending]
          exact List.prefix_append _ _
      | some parent =>
          obtain ⟨-, head, rest, items, started⟩ := queue.busy parent pending
          rw [started, items]
          exact ⟨rest, by simp⟩
    refine List.filter_eq_nil_iff.mpr fun wr member => ?_
    rw [decide_eq_true_eq]
    rintro ⟨own, succeeded⟩
    obtain ⟨later, split⟩ := started
    have found := numbered.completed wr member
    rw [own] at found
    rw [← split, List.getElem?_append_left (List.getElem?_eq_some_iff.mp found).1, found]
      at posted
    injection posted with posted
    rw [failing.completed wr member (posted ▸ empty)] at succeeded
    cases succeeded
  · exact failing.observed
  · intro request member
    obtain ⟨⟨datagram, disposal⟩, listed, made⟩ := List.mem_filterMap.mp member
    obtain ⟨event, present, disposed⟩ := List.mem_filterMap.mp listed
    have payload := refusing.events event present
    cases disposal with
    | backendRequest request' =>
        injection made with made
        cases event with
        | disposed other disposal =>
            injection disposed with disposed
            injection disposed with carried same
            rw [same, made] at payload
            exact payload
        | _ => cases disposed
    | _ => cases made
  · exact fun requestId entry member => refusing.events _ member

/-- In every run of two connected workers, whatever WRs are posted, whatever the backend
answers and in whatever order the calls are made, zero-length writes are never completed
with success. -/
theorem zero_length_never_succeeds {configuration : World.Configuration}
    {actions : List Action}
    (admissible : Execution.Along World.step (Admissible Connected)
      (World.initial configuration) actions) :
    ZeroLengthRefused
      (Execution.run World.step (World.initial configuration) actions) := by
  obtain ⟨agreed, numbered, refusing, failing⟩ := @run_invariant _
    (fun world => Agreed world ∧ Numbered world ∧ Refusing world ∧ NoEmptySuccess world)
    (fun _ _ transition ⟨agreed, numbered, refusing, failing⟩ =>
      ⟨agreed.transition (fun _ _ connected => connected.paired) transition,
        numbered.transition agreed.accounted.queue agreed.accounted.responses transition,
        transition.elim (refusing.sender fun _ _ connected => connected)
          (refusing.responder agreed fun _ _ connected => connected),
        failing.transition numbered refusing agreed.accounted transition⟩)
    _ ⟨Agreed.initial configuration,
      ⟨rfl, List.forall_mem_nil _, List.forall_mem_nil _, List.nodup_nil⟩,
      ⟨nofun, nofun, List.forall_mem_nil _⟩,
      List.forall_mem_nil _, by simp [World.initial]⟩ _ admissible
  exact failing.zeroLengthRefused numbered refusing agreed.accounted.queue

/-! ## What the branches are for -/

/-- What `valid_send_wr` accepts, as it stands in the slot. -/
structure SendWqe.Accepted (wqe : SendWqe) (maxSge : Nat) : Prop where
  opcode : wqe.header.opcode = wrRdmaWrite ∨ wqe.header.opcode = wrRdmaWriteWithImm
  sendFlags : wqe.header.sendFlags = 0 ∨ wqe.header.sendFlags = sendSignaled
  sgeCount : wqe.header.sgeCount ≤ maxSge

/-- The two QPs are connected, the entries of the WQE have live keys and start in their
regions, and so has the remote address. -/
structure SendWqe.Live (wqe : SendWqe) (requesterQpNum responderQpNum : Nat)
    (service : QpService) : Prop where
  requester : ∃ view, service.workerQpView requesterQpNum = .ok view ∧
    view.peerQpNum = responderQpNum ∧ wqe.Accepted view.maxSendSge ∧
    ∀ sge ∈ wqe.sgeList, ∃ address,
      service.resolveLkey view.sessionId view.pdIdentity sge.lkey sge.address 1 = .ok address
  responder : ∃ view, service.workerQpView responderQpNum = .ok view ∧
    view.peerQpNum = requesterQpNum ∧ ∃ address,
      service.resolveRkey view.sessionId view.pdIdentity wqe.header.rkey
        wqe.header.remoteAddress 1 = .ok address

namespace Loopback

open Ugdr.Control.Loopback

/-- A signaled write without entries to the first byte of the region. -/
def liveEmptyWrite : SendWqe where
  header :=
    { wrId := 9
      remoteAddress := 4096
      rkey := 2
      opcode := wrRdmaWrite
      sendFlags := sendSignaled }
  sges := fun _ => {}
  length_lt := fun _ => zero_lt

theorem liveEmptyWrite_live : liveEmptyWrite.Live 1 2 service where
  requester := ⟨requesterView, requesterView_eq, rfl,
    ⟨Or.inl rfl, Or.inr rfl, Nat.zero_le _⟩, nofun⟩
  responder := ⟨_, responderView_eq, rfl, 8192, by decide +kernel⟩

def liveEmptyRun : List Action :=
  [.postSend liveEmptyWrite, .trySend service, .tryRequest service, .tryResponse service]

theorem liveEmptyRun_connected :
    Execution.Along World.step (Admissible Connected) (World.initial configuration)
      liveEmptyRun := by
  refine along_admissible ?_ (by decide +kernel)
  simp only [liveEmptyRun]
  exact actions_reachable (by simp [Action.service])

end Loopback

theorem zero_length_never_succeeds_liveEmptyRun :
    (Execution.run World.step (World.initial Loopback.configuration)
        Loopback.liveEmptyRun).sendCq.items = [sendCompletion 9 1 .remoteAccessError] ∧
      ZeroLengthRefused (Execution.run World.step (World.initial Loopback.configuration)
        Loopback.liveEmptyRun) :=
  ⟨by decide +kernel, zero_length_never_succeeds Loopback.liveEmptyRun_connected⟩

/-- A zero-length write with live keys is completed, but not with success. -/
theorem zero_length_not_completed :
    ¬∀ configuration actions,
      Execution.Along World.step (Admissible Connected) (World.initial configuration) actions →
      ∀ serial wqe,
        (Execution.run World.step (World.initial configuration) actions).posted[serial]? =
          some wqe →
        wqe.totalLength = 0 →
        (∀ action ∈ actions, ∀ service, action.service = some service →
          wqe.Live configuration.requesterQpNum configuration.responderQpNum service) →
        serial ∈ (ledger (Execution.run World.step (World.initial configuration)
          actions).trace).completed.map CompletedWr.serial →
        ((Execution.run World.step (World.initial configuration)
          actions).successes serial).length = 1 := by
  intro claimed
  have live : ∀ action ∈ Loopback.liveEmptyRun, ∀ service, action.service = some service →
      Loopback.liveEmptyWrite.Live 1 2 service := by
    intro action member service used
    have same : service = Loopback.service := by
      simp only [Loopback.liveEmptyRun, List.mem_cons, List.not_mem_nil, or_false] at member
      rcases member with rfl | rfl | rfl | rfl <;> cases used <;> rfl
    rw [same]
    exact Loopback.liveEmptyWrite_live
  have succeeded := claimed Loopback.configuration Loopback.liveEmptyRun
    Loopback.liveEmptyRun_connected 0 Loopback.liveEmptyWrite rfl rfl live (by decide +kernel)
  have failed : ((Execution.run World.step (World.initial Loopback.configuration)
      Loopback.liveEmptyRun).successes 0).length = 0 := by
    decide +kernel
  rw [failed] at succeeded
  cases succeeded

end Ugdr.Worker
