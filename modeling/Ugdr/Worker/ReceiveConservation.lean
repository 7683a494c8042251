import Ugdr.Worker.ReceiveMatching

/-! # Conservation of Receive WRs

Every Receive WR that was posted is in the receive queue, held by a parent in flight,
reported by a receive completion, or was taken by a parent that was answered with an
error. The last kind is not reported to the receiver.
-/

namespace Ugdr.Worker

open Ugdr.Queue Ugdr.Control

variable {world : World} {ledger : ReceiveLedger}

/-- The parents in flight whose Receive WR is released from the queue. -/
def World.heldReceives (world : World) : Nat :=
  world.responder.responderOrder.countP fun requestId =>
    (world.responder.responderInflight requestId).any
      fun parent => parent.hasReceive && parent.receiveConsumed

/-- The parents that took a Receive WR and were answered with an error. -/
def ReceiveLedger.failed (ledger : ReceiveLedger) : List (Admission × ResponseDatagram) :=
  ledger.retired.filter fun retired =>
    retired.1.receive.isSome && decide (retired.2.result ≠ .success)

/-- The admission took a Receive WR and its record says that the slot is not released. -/
def World.unconsumed (world : World) (admission : Admission) : Bool :=
  admission.receive.isSome &&
    (world.responder.responderInflight admission.requestId).any
      fun parent => !parent.receiveConsumed

theorem countP_eq_add {α : Type*} {whole left right : α → Bool} {list : List α}
    (split : ∀ element ∈ list,
      (whole element).toNat = (left element).toNat + (right element).toNat) :
    list.countP whole = list.countP left + list.countP right := by
  induction list with
  | nil => rfl
  | cons first rest induction =>
      have here := split first List.mem_cons_self
      have later := induction fun element member => split element (List.mem_cons_of_mem _ member)
      have counts : ∀ holds : Bool, (if holds = true then 1 else 0) = holds.toNat := by decide
      simp only [List.countP_cons, counts]
      omega

namespace Accounted

/-- Among the parents in flight, the one whose slot is not released is the one whose
first datagram is held back. -/
theorem unconsumed_iff (accounted : Accounted world ledger) {admission : Admission}
    (member : admission ∈ ledger.inflight) :
    world.unconsumed admission = true ↔ world.holder = some admission.request := by
  obtain ⟨parent, found, carried⟩ := accounted.carried admission member
  have kind := accounted.kinds admission (List.mem_append_right _ member)
  have record : world.unconsumed admission =
      (admission.receive.isSome && !parent.receiveConsumed) := by
    simp [World.unconsumed, found]
  have begun : world.begun admission.request = decide (parent.nextPayloadIndex = 0) := by
    have found : world.responder.responderInflight admission.request.parentRequestId =
        some parent := found
    simp [World.begun, found]
  rw [record, Bool.and_eq_true, Bool.not_eq_true_eq_eq_false]
  constructor
  · rintro ⟨takes, unconsumed⟩
    have start := (carried.consumed (carried.hasReceive.trans takes)).mp unconsumed
    simp [World.holder, (carried.first start).1, begun, start, kind.mp takes]
  · intro holds
    unfold World.holder at holds
    rw [Option.filter_eq_some_iff] at holds
    obtain ⟨-, held⟩ := holds
    rw [begun] at held
    simp only [decide_eq_true_eq] at held
    have takes := kind.mpr held.2
    exact ⟨takes, (carried.consumed (carried.hasReceive.trans takes)).mpr held.1⟩

theorem countP_unconsumed (accounted : Accounted world ledger) :
    ledger.inflight.countP world.unconsumed = world.holder.toList.length := by
  cases holder : world.holder with
  | none =>
      refine List.countP_eq_zero.mpr fun admission member unconsumed => ?_
      rw [accounted.unconsumed_iff member, holder] at unconsumed
      cases unconsumed
  | some request =>
      have holds := holder
      unfold World.holder at holds
      rw [Option.filter_eq_some_iff] at holds
      obtain ⟨pending, held⟩ := holds
      obtain ⟨admission, member, same, -⟩ :=
        accounted.admission_of_begun pending (of_decide_eq_true held).1
      have lies : request.parentRequestId ∈ world.responder.responderOrder := by
        rw [← accounted.order, ← same]
        exact List.mem_map.mpr ⟨admission, member, rfl⟩
      have once : world.responder.responderOrder.count request.parentRequestId = 1 :=
        List.count_eq_one_of_mem accounted.distinct lies
      rw [← accounted.order, List.count, List.countP_map] at once
      refine Eq.trans ?_ once
      refine List.countP_congr fun other otherMember => ?_
      rw [accounted.unconsumed_iff otherMember, holder]
      simp only [Option.some.injEq, Function.comp_apply, beq_iff_eq]
      constructor
      · rintro rfl
        rfl
      · intro sameId
        have begun : world.begun other.request = true := by
          have begun := (of_decide_eq_true held).1
          have sameId : other.request.parentRequestId = request.parentRequestId := sameId
          rwa [World.begun, ← sameId] at begun
        obtain ⟨parent, found, carried⟩ := accounted.carried other otherMember
        have start : parent.nextPayloadIndex = 0 := by
          have found : world.responder.responderInflight other.request.parentRequestId =
              some parent := found
          simpa [World.begun, found] using begun
        have first := (carried.first start).1
        rw [pending] at first
        injection first

/-- The parents in flight that took a Receive WR hold it or have it in the queue. -/
theorem heldReceives (accounted : Accounted world ledger) :
    ledger.inflight.countP (fun admission => admission.receive.isSome) =
      world.heldReceives + world.holder.toList.length := by
  rw [World.heldReceives, ← accounted.order, List.countP_map, ← accounted.countP_unconsumed]
  refine countP_eq_add fun admission member => ?_
  obtain ⟨parent, found, carried⟩ := accounted.carried admission member
  simp only [Function.comp_apply, World.unconsumed, found, Option.any_some, carried.hasReceive]
  cases admission.receive.isSome <;> cases parent.receiveConsumed <;> rfl

/-- The parents that took a Receive WR and are answered were reported or failed. -/
theorem reported (accounted : Accounted world ledger) :
    ledger.retired.countP (fun retired => retired.1.receive.isSome) =
      world.received.length + ledger.failed.length := by
  rw [accounted.completions, ReceiveLedger.failed, ← List.countP_eq_length_filter,
    List.length_filterMap_eq_countP]
  refine countP_eq_add fun retired _ => ?_
  simp only [Admission.completion]
  cases retired.1.receive <;> by_cases success : retired.2.result = .success <;>
    simp [success]

end Accounted

/-- Every Receive WR posted so far is in the queue, held by a parent in flight, reported
by a receive completion or was taken by a parent that failed. A parent that took one is
reported, once and with the WR's id, exactly if it was answered with success. -/
theorem receives_conserved (configuration : World.Configuration) (actions : List Action)
    (reachable : ∀ action ∈ actions, ∀ service, action.service = some service →
      service.Reachable) :
    let run := Execution.run ReceiveRun.step (.initial configuration) actions
    run.ledger.posted.length =
        run.world.receiveQueue.items.length + run.world.heldReceives +
          run.world.received.length + run.ledger.failed.length ∧
      run.world.received =
        run.ledger.retired.filterMap
          (Admission.completion run.world.responder.qpNum) ∧
      run.world.publishedReceive = run.world.polledReceive ++ run.world.receiveCq.items := by
  intro run
  have accounted : Accounted run.world run.ledger := run_receives reachable
  refine ⟨?_, accounted.completions, accounted.published⟩
  have slots := congrArg List.length accounted.slots
  have claims := congrArg List.length accounted.claims
  have held := accounted.heldReceives
  have reported := accounted.reported
  have stocked := accounted.stocked
  rw [accounted.peeked] at stocked
  have counted : run.ledger.claims.length =
      run.ledger.retired.countP (fun retired => retired.1.receive.isSome) +
        run.ledger.inflight.countP fun admission => admission.receive.isSome := by
    rw [ReceiveLedger.claims, List.length_filterMap_eq_countP, ReceiveLedger.admitted,
      List.countP_append, List.countP_map]
    simp [Admission.claim, Function.comp_def]
  rw [List.length_append, List.length_map] at slots
  rw [List.length_append, List.length_zip] at claims
  omega

theorem receives_conserved_immediate :
    (Loopback.immediateRun .success).ledger.posted.length = 1 ∧
      (Loopback.immediateRun .success).ledger.posted.length =
        (Loopback.immediateRun .success).world.receiveQueue.items.length +
            (Loopback.immediateRun .success).world.heldReceives +
          (Loopback.immediateRun .success).world.received.length +
        (Loopback.immediateRun .success).ledger.failed.length :=
  ⟨by decide +kernel,
    (receives_conserved Loopback.configuration (Loopback.immediateActions .success)
      (Loopback.immediateActions_reachable .success)).1⟩

/-- The backend fails the payload of a write with immediate data: its parent is answered
and retired, its Receive WR is gone from the queue, and no completion reports it. -/
theorem failed_write_loses_receive :
    (∀ action ∈ Loopback.immediateActions .backendError, ∀ service,
        action.service = some service → service.Reachable) ∧
      (Loopback.immediateRun .backendError).ledger.released.map Prod.snd = [{ wrId := 21 }] ∧
      (Loopback.immediateRun .backendError).world.responder.responderOrder = [] ∧
      (Loopback.immediateRun .backendError).world.publishedReceive = [] ∧
      (Loopback.immediateRun .backendError).ledger.posted.length ≠
        (Loopback.immediateRun .backendError).world.receiveQueue.items.length +
            (Loopback.immediateRun .backendError).world.heldReceives +
          (Loopback.immediateRun .backendError).world.received.length :=
  ⟨Loopback.immediateActions_reachable .backendError, by decide +kernel⟩

end Ugdr.Worker
