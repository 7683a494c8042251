import Ugdr.Control.RequestEffects

/-! # Transitions of queue pairs

What an event does to the record of each queue pair, with the request that asked for it.
-/

namespace Ugdr.Control

open GenerationRegistry Wire

/-- The peer of a queue pair with the four retry attributes. -/
structure Binding where
  peerQpNum : Nat
  peerIdentity : Nat
  timeout : Nat
  retryCount : Nat
  rnrRetry : Nat
  minRnrTimer : Nat
  deriving DecidableEq, Repr

def unbound : Binding := ⟨0, 0, 0, 0, 0, 0⟩

def QpRecord.binding (qp : QpRecord) : Binding :=
  ⟨qp.peerQpNum, qp.peerIdentity, qp.timeout, qp.retryCount, qp.rnrRetry, qp.minRnrTimer⟩

/-- Without the guard bit a mask is the base mask; with it, the base mask and the bit. -/
theorem mask_of_base {mask base : UInt32} (selected : mask &&& ~~~qpMaskCurrentState = base) :
    mask = base ∨ mask = base ||| qpMaskCurrentState := by
  have split : mask = base ||| (mask &&& qpMaskCurrentState) := by
    rw [← selected, ← UInt32.toBitVec_inj]
    rw [UInt32.toBitVec_or, UInt32.toBitVec_and, UInt32.toBitVec_and, UInt32.toBitVec_not,
      ← BitVec.and_or_distrib_left, BitVec.not_or_self, BitVec.and_allOnes]
  have bit := Nat.and_two_pow mask.toNat 1
  cases guarded : mask.toNat.testBit 1 with
  | false =>
      have clear : mask &&& qpMaskCurrentState = 0 := by
        apply UInt32.toNat.inj
        simpa [guarded, qpMaskCurrentState] using bit
      rw [clear] at split
      exact .inl (by simpa using split)
  | true =>
      have set : mask &&& qpMaskCurrentState = qpMaskCurrentState := by
        apply UInt32.toNat.inj
        simpa [guarded, qpMaskCurrentState] using bit
      rw [set] at split
      exact .inr split

namespace QpService

open ObjectGraph

variable {service : QpService} {session : OwnerSessionId} {request : ControlRequest}
  {environment : Environment} {event : Event}

/-- The four states in which a queue pair is found between requests. Before it is
connected, its binding is still empty. -/
inductive Staged (qp : QpRecord) : Prop
  | reset (state : qp.state = qpStateReset) (empty : qp.binding = unbound)
  | init (state : qp.state = qpStateInit) (empty : qp.binding = unbound)
  | rts (state : qp.state = qpStateRts) (bound : qp.peerQpNum ≠ 0)
  | err (state : qp.state = qpStateErr)

def QpsStaged (service : QpService) : Prop :=
  ∀ entry ∈ service.qps.entries, Staged entry.record

/-- A modify request for a base mask, with a guard that agrees with the queue pair. -/
structure ModifyRequest (request : ControlRequest) (attributes : QpAttributes)
    (mask base : UInt32) (qp : QpRecord) : Prop where
  method : ControlMethod.ofCode request.method = some .modifyQp
  decoded : decodeModifyPayload request.payload = .ok (attributes, mask)
  selected : mask = base ∨ mask = base ||| qpMaskCurrentState
  guard : mask &&& qpMaskCurrentState ≠ 0 → attributes.currentState = qp.state

/-- What an event does to the record of the live queue pair `identity`. -/
inductive QpTransition (event : Event) (identity : Nat) (before : QpRecord) : QpRecord → Prop
  | kept : QpTransition event identity before before
  | initialized {session : OwnerSessionId} {request : ControlRequest}
      {environment : Environment} {attributes : QpAttributes} {mask : UInt32}
      (asked : event = .request session request environment)
      (target : request.objectIdentity = identity)
      (allowed : ModifyRequest request attributes mask (qpMaskState ||| qpMaskAccess) before)
      (state : before.state = qpStateReset) (wanted : attributes.state = qpStateInit)
      (access : attributes.accessFlags = qpAccessRemoteWrite) :
      QpTransition event identity before
        { before with accessFlags := attributes.accessFlags, state := qpStateInit }
  | connected {session : OwnerSessionId} {request : ControlRequest}
      {environment : Environment} {remoteQpNum remoteIdentity : Nat}
      {attributes : QpAttributes} {mask : UInt32}
      (asked : event = .request session request environment)
      (target : request.objectIdentity = identity)
      (method : ControlMethod.ofCode request.method = some .connectQp)
      (decoded : decodeConnectPayload request.payload = .ok (remoteQpNum, attributes, mask))
      (state : before.state = qpStateInit) (number : remoteQpNum ≠ 0) :
      QpTransition event identity before
        (connectedQp before remoteQpNum remoteIdentity attributes)
  | failed {session : OwnerSessionId} {request : ControlRequest}
      {environment : Environment} {attributes : QpAttributes} {mask : UInt32}
      (asked : event = .request session request environment)
      (target : request.objectIdentity = identity)
      (allowed : ModifyRequest request attributes mask qpMaskState before)
      (state : before.state = qpStateReset ∨ before.state = qpStateInit ∨
        before.state = qpStateRts)
      (wanted : attributes.state = qpStateErr) :
      QpTransition event identity before { before with state := qpStateErr }

/-- Where the record of a live queue pair comes from. -/
inductive QpOrigin (service : QpService) (event : Event) (after : Entry QpRecord) : Prop
  | created (fresh : after.identity ∉ service.qps.entries.map Entry.identity)
      (state : after.record.state = qpStateReset) (binding : after.record.binding = unbound)
      (available : service.nextQpNum ≠ 0) (number : after.record.qpNum = service.nextQpNum)
      (advanced : (service.step event).nextQpNum = (service.nextQpNum + 1) % 2 ^ 32)
  | moved (before : Entry QpRecord) (member : before ∈ service.qps.entries)
      (identity : after.identity = before.identity) (owner : after.owner = before.owner)
      (transition : QpTransition event before.identity before.record after.record)

theorem Staged.ne_rtr {qp : QpRecord} (staged : Staged qp) : qp.state ≠ qpStateRtr := by
  cases staged with
  | reset state _ => rw [state]; decide
  | init state _ => rw [state]; decide
  | rts state _ => rw [state]; decide
  | err state => rw [state]; decide

theorem modifiedQp_transition {qp updated : QpRecord} {attributes : QpAttributes}
    {mask : UInt32} (staged : Staged qp)
    (method : ControlMethod.ofCode request.method = some .modifyQp)
    (decoded : decodeModifyPayload request.payload = .ok (attributes, mask))
    (modified : modifiedQp qp attributes mask = .ok updated) :
    QpTransition (.request session request environment) request.objectIdentity qp updated := by
  unfold modifiedQp at modified
  dsimp only at modified
  split at modified
  · cases modified
  · split at modified
    · cases modified
    · split at modified
      · cases modified
      · rename_i matching
        have guard : mask &&& qpMaskCurrentState ≠ 0 → attributes.currentState = qp.state := by
          intro guarded
          by_contra different
          exact matching ⟨guarded, different⟩
        split at modified
        · rename_i initial
          obtain ⟨state, wanted, base, access⟩ := initial
          cases modified
          exact .initialized rfl rfl ⟨method, decoded, mask_of_base base, guard⟩ state wanted
            access
        · split at modified
          · rename_i final
            obtain ⟨live, wanted, base⟩ := final
            have state : qp.state = qpStateReset ∨ qp.state = qpStateInit ∨
                qp.state = qpStateRts := by
              rcases live with reset | init | rtr | rts
              · exact .inl reset
              · exact .inr (.inl init)
              · exact absurd rtr staged.ne_rtr
              · exact .inr (.inr rts)
            cases modified
            exact .failed rfl rfl ⟨method, decoded, mask_of_base base, guard⟩ state wanted
          · cases modified

/-- A queue pair that is stored in the same place with a record it may move to. -/
theorem QpOrigin.of_adjust (valid : service.Valid) {identity : Nat} {qp : QpRecord}
    {update : QpRecord → QpRecord} {after : Entry QpRecord}
    (target : ⟨identity, session, qp⟩ ∈ service.graph.qps)
    (transition : QpTransition event identity qp (update qp))
    (member : after ∈ service.graph.qps.map (Entry.adjust identity update)) :
    QpOrigin service event after := by
  obtain ⟨before, live, rfl⟩ := List.mem_map.mp member
  refine .moved before live (Entry.adjust_identity ..) (Entry.adjust_owner ..) ?_
  rw [Entry.adjust_record]
  split
  · rename_i here
    rw [entry_unique valid.qps live target here]
    exact transition
  · exact .kept

theorem QpOrigin.of_mem {after : Entry QpRecord} (member : after ∈ service.graph.qps) :
    QpOrigin service event after :=
  .moved after member rfl rfl .kept

theorem step_origin (valid : service.Valid) (staged : service.QpsStaged) (event : Event)
    {after : Entry QpRecord}
    (member : after ∈ (service.step event).qps.entries) : QpOrigin service event after := by
  cases event with
  | disconnect session =>
      have remaining := (eraseSession_entries valid.qps session).2
      simp only [step, onDisconnect] at member
      rw [remaining] at member
      exact .of_mem (List.mem_of_mem_filter member)
  | request session request environment =>
      have outcome := handle_outcome valid session request environment
      by_cases answered : (handle service session request environment).1.status = none
      · obtain ⟨graph, applied, same⟩ := outcome.applied answered
        have live := same.qps.subset member
        cases applied with
        | createQp attributes pd queues method available fresh =>
            rcases List.mem_cons.mp live with rfl | before
            · exact .created fresh rfl rfl available rfl same.nextQpNum
            · exact .of_mem before
        | destroyQp qp qps method removed =>
            exact .of_mem (removed.symm.subset (List.mem_cons_of_mem _ live))
        | modifyQp attributes mask qp updated method decoded target modified =>
            exact .of_adjust valid target
              (modifiedQp_transition (staged _ target) method decoded modified) live
        | connectQp remoteQpNum remoteIdentity attributes mask qp remote method decoded target
            checked unbound ready indexed found accepts =>
            exact .of_adjust valid target
              (.connected rfl rfl method decoded ready checked.1) live
        | _ => exact .of_mem live
      · exact .of_mem ((outcome.refused answered).same.qps.subset member)

theorem QpTransition.qpNum {identity : Nat} {before after : QpRecord}
    (transition : QpTransition event identity before after) : after.qpNum = before.qpNum := by
  cases transition <;> rfl

/-- The number that the next queue pair gets. -/
theorem step_nextQpNum (valid : service.Valid) (event : Event) :
    (service.step event).nextQpNum = service.nextQpNum ∨
      service.nextQpNum ≠ 0 ∧
        (service.step event).nextQpNum = (service.nextQpNum + 1) % 2 ^ 32 := by
  cases event with
  | disconnect session => exact .inl rfl
  | request session request environment =>
      have outcome := handle_outcome valid session request environment
      by_cases answered : (handle service session request environment).1.status = none
      · obtain ⟨graph, applied, same⟩ := outcome.applied answered
        have number : (service.step (.request session request environment)).nextQpNum =
          graph.nextQpNum := same.nextQpNum
        rw [number]
        cases applied with
        | createQp attributes pd queues method available fresh => exact .inr ⟨available, rfl⟩
        | _ => exact .inl rfl
      · exact (outcome.refused answered).nextQpNum

end QpService

end Ugdr.Control
