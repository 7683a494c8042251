import Ugdr.Control.ServiceInvariant

/-! # Runs of the control service

Any sequence of requests and disconnects, of any sessions and with any payloads,
starting from a daemon without objects.
-/

namespace Ugdr.Control.QpService

open GenerationRegistry ObjectGraph

inductive Event
  | request (session : OwnerSessionId) (request : ControlRequest) (environment : Environment)
  | disconnect (session : OwnerSessionId)

def step (service : QpService) : Event → QpService
  | .request session request environment => (handle service session request environment).2
  | .disconnect session => service.onDisconnect session

theorem step_valid {service : QpService} (valid : service.Valid) (event : Event) :
    (service.step event).Valid := by
  cases event with
  | request session request environment => exact handle_valid valid
  | disconnect session => exact onDisconnect_valid valid session

theorem run_valid (catalog : List DeviceDescriptor) (events : List Event) :
    (Execution.run step (create catalog) events).Valid := by
  refine Execution.run_invariant ?_ (create_valid catalog) events
  intro service event valid
  exact step_valid valid event

/-- A state that a daemon's control requests can lead to. -/
def Reachable (service : QpService) : Prop :=
  ∃ catalog events, service = Execution.run step (create catalog) events

theorem Reachable.valid {service : QpService} (reachable : service.Reachable) :
    service.Valid := by
  obtain ⟨catalog, events, rfl⟩ := reachable
  exact run_valid catalog events

theorem Reachable.step {service : QpService} (reachable : service.Reachable) (event : Event) :
    (service.step event).Reachable := by
  obtain ⟨catalog, events, rfl⟩ := reachable
  exact ⟨catalog, events ++ [event], (Execution.run_concat ..).symm⟩

/-- The counts and indexes kept in the records agree with the live objects, and
every stored reference resolves for the session that owns the record. -/
structure Accounted (service : QpService) : Prop where
  childCount : ∀ context ∈ service.contexts.entries, context.record.childCount =
    (service.pds.entries.countP fun pd => pd.record.contextIdentity = context.identity) +
      service.cqs.entries.countP fun cq => cq.record.contextIdentity = context.identity
  mrIdentities : ∀ pd ∈ service.pds.entries, ∀ identity,
    identity ∈ pd.record.mrIdentities ↔
      ∃ mr ∈ service.mrs.entries, mr.record.pdIdentity = pd.identity ∧ mr.identity = identity
  localKeyIndex : ∀ pd ∈ service.pds.entries, ∀ key identity,
    pd.record.localKeyIndex key = some identity ↔
      ∃ mr ∈ service.mrs.entries, mr.record.pdIdentity = pd.identity ∧
        mr.identity = identity ∧ mr.record.lkey = key
  remoteKeyIndex : ∀ pd ∈ service.pds.entries, ∀ key identity,
    pd.record.remoteKeyIndex key = some identity ↔
      ∃ mr ∈ service.mrs.entries, mr.record.pdIdentity = pd.identity ∧
        mr.identity = identity ∧ mr.record.rkey = key
  qpCount : ∀ pd ∈ service.pds.entries, pd.record.qpCount =
    service.qps.entries.countP fun qp => qp.record.pdIdentity = pd.identity
  qpReferences : ∀ cq ∈ service.cqs.entries, cq.record.qpReferences =
    service.qps.entries.countP fun qp =>
      qp.record.sendCqIdentity = cq.identity ∨ qp.record.recvCqIdentity = cq.identity
  qpNumIndex : ∀ number identity, service.qpNumIndex number = some identity ↔
    ∃ qp ∈ service.qps.entries, qp.record.qpNum = number ∧ qp.identity = identity
  pdContext : ∀ pd ∈ service.pds.entries,
    (service.resolveContext pd.owner pd.record.contextIdentity).isSome
  cqContext : ∀ cq ∈ service.cqs.entries,
    (service.resolveContext cq.owner cq.record.contextIdentity).isSome
  mrParents : ∀ mr ∈ service.mrs.entries,
    (service.resolveContext mr.owner mr.record.contextIdentity).isSome ∧
      ∃ pd, service.resolvePd mr.owner mr.record.pdIdentity = some pd ∧
        pd.contextIdentity = mr.record.contextIdentity
  qpParents : ∀ qp ∈ service.qps.entries,
    (service.resolveContext qp.owner qp.record.contextIdentity).isSome ∧
      (∃ pd, service.resolvePd qp.owner qp.record.pdIdentity = some pd ∧
        pd.contextIdentity = qp.record.contextIdentity) ∧
      (∃ cq, service.resolveCq qp.owner qp.record.sendCqIdentity = some cq ∧
        cq.contextIdentity = qp.record.contextIdentity) ∧
      ∃ cq, service.resolveCq qp.owner qp.record.recvCqIdentity = some cq ∧
        cq.contextIdentity = qp.record.contextIdentity

/-- What a well-shaped destroy request of the owner of a live object answers. -/
structure DestroyAnswers (service : QpService) : Prop where
  context : ∀ session request environment context,
    request.method = 3 → emptyShape request = true →
    service.contexts.resolve session request.objectIdentity = some context →
    let status := (handle service session request environment).1.status
    (status = none ∨ status = some .ebusy) ∧
      (status = none ↔
        (∀ pd ∈ service.pds.entries, pd.record.contextIdentity ≠ request.objectIdentity) ∧
          ∀ cq ∈ service.cqs.entries, cq.record.contextIdentity ≠ request.objectIdentity)
  pd : ∀ session request environment pd,
    request.method = 5 → emptyShape request = true →
    service.pds.resolve session request.objectIdentity = some pd →
    let status := (handle service session request environment).1.status
    (status = none ∨ status = some .ebusy) ∧
      (status = none ↔
        (∀ mr ∈ service.mrs.entries, mr.record.pdIdentity ≠ request.objectIdentity) ∧
          ∀ qp ∈ service.qps.entries, qp.record.pdIdentity ≠ request.objectIdentity)
  cq : ∀ session request environment cq,
    request.method = 9 → emptyShape request = true →
    service.cqs.resolve session request.objectIdentity = some cq →
    let status := (handle service session request environment).1.status
    (status = none ∨ status = some .ebusy) ∧
      (status = none ↔ ∀ qp ∈ service.qps.entries,
        qp.record.sendCqIdentity ≠ request.objectIdentity ∧
          qp.record.recvCqIdentity ≠ request.objectIdentity)
  mr : ∀ session request environment mr,
    request.method = 7 → emptyShape request = true →
    service.mrs.resolve session request.objectIdentity = some mr →
    (handle service session request environment).1.status =
      environment.closeMemory mr.mapping
  qp : ∀ session request environment qp,
    request.method = 11 → emptyShape request = true →
    service.qps.resolve session request.objectIdentity = some qp →
    (handle service session request environment).1.status = none

variable {service : QpService}

theorem resolveContext_of_mem (valid : service.Valid) {context : Entry ContextRecord}
    {owner identity : Nat} (member : context ∈ service.contexts.entries)
    (same : context.identity = identity) (owned : context.owner = owner) :
    service.resolveContext owner identity = some context.record := by
  subst same owned
  exact (resolve_eq_some_iff valid.contexts (by decide)).mpr member

theorem resolvePd_of_mem (valid : service.Valid) {pd : Entry PdRecord}
    {owner identity : Nat} (member : pd ∈ service.pds.entries)
    (same : pd.identity = identity) (owned : pd.owner = owner) :
    service.resolvePd owner identity = some pd.record := by
  subst same owned
  exact (resolve_eq_some_iff valid.pds (by decide)).mpr member

theorem resolveCq_of_mem (valid : service.Valid) {cq : Entry CqRecord}
    {owner identity : Nat} (member : cq ∈ service.cqs.entries)
    (same : cq.identity = identity) (owned : cq.owner = owner) :
    service.resolveCq owner identity = some cq.record := by
  subst same owned
  exact (resolve_eq_some_iff valid.cqs (by decide)).mpr member

/-- The context named by a live PD resolves for the PD's owner. -/
theorem pd_context_isSome (valid : service.Valid) {pd : Entry PdRecord}
    (member : pd ∈ service.pds.entries) :
    (service.resolveContext pd.owner pd.record.contextIdentity).isSome := by
  obtain ⟨context, contextMember, same, owned⟩ := valid.consistent.pdContext pd member
  rw [resolveContext_of_mem valid contextMember same owned]
  rfl

theorem accounted_of_valid (valid : service.Valid) : service.Accounted := by
  have consistent := valid.consistent
  constructor
  case childCount =>
    intro context member
    have counted := consistent.childCount context member
    simp only [children, List.countP_append, List.countP_map, Function.comp_def] at counted
    exact counted
  case mrIdentities =>
    intro pd member identity
    refine (consistent.mrIdentities pd member identity).trans ?_
    exact exists_congr fun mr => and_congr_right fun _ => and_comm
  case localKeyIndex =>
    intro pd member key identity
    refine (consistent.localKeyIndex pd member (key, identity)).trans ?_
    refine exists_congr fun mr => and_congr_right fun _ => ?_
    constructor <;> tauto
  case remoteKeyIndex =>
    intro pd member key identity
    refine (consistent.remoteKeyIndex pd member (key, identity)).trans ?_
    refine exists_congr fun mr => and_congr_right fun _ => ?_
    constructor <;> tauto
  case qpCount => exact consistent.qpCount
  case qpReferences => exact consistent.qpReferences
  case qpNumIndex =>
    intro number identity
    exact consistent.qpNumIndex _ (List.mem_singleton_self _) (number, identity)
  case pdContext => exact fun pd member => pd_context_isSome valid member
  case cqContext =>
    intro cq member
    obtain ⟨context, contextMember, same, owned⟩ := consistent.cqContext cq member
    rw [resolveContext_of_mem valid contextMember same owned]
    rfl
  case mrParents =>
    intro mr member
    obtain ⟨pd, pdMember, same, owned, context⟩ := consistent.mrPd mr member
    refine ⟨?_, pd.record, resolvePd_of_mem valid pdMember same owned, context⟩
    rw [← owned, ← context]
    exact pd_context_isSome valid pdMember
  case qpParents =>
    intro qp member
    obtain ⟨pd, pdMember, same, owned, context⟩ := consistent.qpPd qp member
    obtain ⟨send, sendMember, sendSame, sendOwned, sendContext⟩ :=
      consistent.qpSendCq qp member
    obtain ⟨receive, receiveMember, receiveSame, receiveOwned, receiveContext⟩ :=
      consistent.qpRecvCq qp member
    refine ⟨?_, ⟨pd.record, resolvePd_of_mem valid pdMember same owned, context⟩,
      ⟨send.record, resolveCq_of_mem valid sendMember sendSame sendOwned, sendContext⟩,
      receive.record, resolveCq_of_mem valid receiveMember receiveSame receiveOwned,
      receiveContext⟩
    rw [← owned, ← context]
    exact pd_context_isSome valid pdMember

/-! ## Destroy requests -/

section Destroy

variable {session : OwnerSessionId} {request : ControlRequest} {environment : Environment}

theorem childCount_eq_zero_iff (valid : service.Valid) {identity : Nat}
    {context : ContextRecord}
    (resolved : service.contexts.resolve session identity = some context) :
    context.childCount = 0 ↔
      (∀ pd ∈ service.pds.entries, pd.record.contextIdentity ≠ identity) ∧
        ∀ cq ∈ service.cqs.entries, cq.record.contextIdentity ≠ identity := by
  have zero := valid.consistent.childCount.zero_iff (mem_contexts valid resolved)
  refine zero.trans ⟨fun unused => ⟨fun pd member same => ?_, fun cq member same => ?_⟩,
    fun unused child member => ?_⟩
  · have named := unused (.inl pd) (mem_children.mpr (.inl ⟨pd, member, rfl⟩))
    exact absurd same (of_decide_eq_false named)
  · have named := unused (.inr cq) (mem_children.mpr (.inr ⟨cq, member, rfl⟩))
    exact absurd same (of_decide_eq_false named)
  · rcases mem_children.mp member with ⟨pd, pdMember, rfl⟩ | ⟨cq, cqMember, rfl⟩
    · exact decide_eq_false (unused.1 pd pdMember)
    · exact decide_eq_false (unused.2 cq cqMember)

/-- The parent context of a live child resolves and counts the child. -/
theorem parent_counts (valid : service.Valid) {child : Entry PdRecord ⊕ Entry CqRecord}
    (member : child ∈ service.graph.children) {owner : Nat}
    (owned : owner = child.elim Entry.owner Entry.owner) :
    ∃ context, service.resolveContext owner (contextOf child) = some context ∧
      context.childCount ≠ 0 := by
  have parent : ∃ context ∈ service.contexts.entries,
      context.identity = contextOf child ∧ context.owner = owner := by
    rcases mem_children.mp member with ⟨pd, pdMember, rfl⟩ | ⟨cq, cqMember, rfl⟩
    · exact owned ▸ valid.consistent.pdContext pd pdMember
    · exact owned ▸ valid.consistent.cqContext cq cqMember
  obtain ⟨context, contextMember, same, contextOwned⟩ := parent
  refine ⟨context.record, resolveContext_of_mem valid contextMember same contextOwned, ?_⟩
  intro zero
  have unnamed := (valid.consistent.childCount.zero_iff contextMember).mp zero child member
  exact absurd same.symm (of_decide_eq_false unnamed)

theorem destroyContext_answer (valid : service.Valid) (method : request.method = 3)
    (shape : emptyShape request = true) {context : ContextRecord}
    (resolved : service.contexts.resolve session request.objectIdentity = some context) :
    (handle service session request environment).1.status =
      if context.childCount = 0 then none else some .ebusy := by
  obtain ⟨remaining, erased, -⟩ := erase_resolved valid.contexts (by decide) resolved
  simp only [handle, handlePdMrCq, handleDeviceContext, handleDestroyContext, method,
    ControlMethod.ofCode, shape, resolved, erased]
  by_cases idle : context.childCount = 0
  · simp [idle, responseFor]
  · simp [idle, responseFor]

theorem destroyPd_answer (valid : service.Valid) (method : request.method = 5)
    (shape : emptyShape request = true) {pd : PdRecord}
    (resolved : service.pds.resolve session request.objectIdentity = some pd) :
    (handle service session request environment).1.status =
      if pd.mrIdentities = ∅ ∧ pd.qpCount = 0 then none else some .ebusy := by
  obtain ⟨remaining, erased, -⟩ := erase_resolved valid.pds (by decide) resolved
  obtain ⟨context, parent, counts⟩ := parent_counts valid
    (mem_children.mpr (.inl ⟨_, mem_pds valid resolved, rfl⟩)) rfl
  simp only [contextOf, Sum.elim_inl] at parent
  simp only [handle, handlePdMrCq, handleDestroyPd, method, ControlMethod.ofCode, shape,
    resolved, parent, counts, erased]
  by_cases idle : pd.mrIdentities = ∅ ∧ pd.qpCount = 0
  · simp [idle, responseFor]
  · have busy : pd.mrIdentities ≠ ∅ ∨ pd.qpCount ≠ 0 := by tauto
    simp only [if_pos busy, if_neg idle]
    simp [responseFor]

theorem destroyCq_answer (valid : service.Valid) (method : request.method = 9)
    (shape : emptyShape request = true) {cq : CqRecord}
    (resolved : service.cqs.resolve session request.objectIdentity = some cq) :
    (handle service session request environment).1.status =
      if cq.qpReferences = 0 then none else some .ebusy := by
  obtain ⟨remaining, erased, -⟩ := erase_resolved valid.cqs (by decide) resolved
  obtain ⟨context, parent, counts⟩ := parent_counts valid
    (mem_children.mpr (.inr ⟨_, mem_cqs valid resolved, rfl⟩)) rfl
  simp only [contextOf, Sum.elim_inr] at parent
  simp only [handle, handlePdMrCq, handleDestroyCq, method, ControlMethod.ofCode, shape,
    resolved, parent, counts, erased]
  by_cases idle : cq.qpReferences = 0
  · simp [idle, responseFor]
  · simp [idle, responseFor]

theorem deregisterMr_answer (valid : service.Valid) (method : request.method = 7)
    (shape : emptyShape request = true) {mr : MrRecord}
    (resolved : service.mrs.resolve session request.objectIdentity = some mr) :
    (handle service session request environment).1.status =
      environment.closeMemory mr.mapping := by
  obtain ⟨remaining, erased, -⟩ := erase_resolved valid.mrs (by decide) resolved
  have unused := valid.consistent.mrUnused _ (mem_mrs valid resolved)
  obtain ⟨pd, pdMember, same, owned, -⟩ := valid.consistent.mrPd _ (mem_mrs valid resolved)
  have parent := resolvePd_of_mem valid pdMember same owned
  simp only [resolvePd] at unused parent
  simp only [handle, handlePdMrCq, handleDeregisterMr, method, ControlMethod.ofCode, shape,
    resolved, unused, parent, erased]
  cases environment.closeMemory mr.mapping <;> simp [responseFor]

theorem destroyQp_answer (valid : service.Valid) (method : request.method = 11)
    (shape : emptyShape request = true) {qp : QpRecord}
    (resolved : service.qps.resolve session request.objectIdentity = some qp) :
    (handle service session request environment).1.status = none := by
  obtain ⟨remaining, erased, -⟩ := erase_resolved valid.qps (by decide) resolved
  have member := mem_qps valid resolved
  obtain ⟨pd, pdMember, same, owned, -⟩ := valid.consistent.qpPd _ member
  obtain ⟨send, sendMember, sendSame, sendOwned, -⟩ := valid.consistent.qpSendCq _ member
  obtain ⟨recv, recvMember, recvSame, recvOwned, -⟩ := valid.consistent.qpRecvCq _ member
  have parent := resolvePd_of_mem valid pdMember same owned
  have sendCq := resolveCq_of_mem valid sendMember sendSame sendOwned
  have recvCq := resolveCq_of_mem valid recvMember recvSame recvOwned
  -- The QP itself is counted by its PD and by its CQs.
  have counted : ¬ (pd.record.qpCount = 0 ∨ send.record.qpReferences = 0 ∨
      (qp.recvCqIdentity ≠ qp.sendCqIdentity ∧ recv.record.qpReferences = 0)) := by
    rintro (zero | zero | ⟨-, zero⟩)
    · have unnamed := (valid.consistent.qpCount.zero_iff pdMember).mp zero _ member
      exact absurd same.symm (of_decide_eq_false unnamed)
    · have unused := (valid.consistent.qpReferences.zero_iff sendMember).mp zero _ member
      exact absurd (.inl sendSame.symm) (of_decide_eq_false unused)
    · have unused := (valid.consistent.qpReferences.zero_iff recvMember).mp zero _ member
      exact absurd (.inr recvSame.symm) (of_decide_eq_false unused)
  simp only at parent sendCq recvCq
  simp only [handle, handleDestroyQp, method, ControlMethod.ofCode, shape, resolved, parent,
    sendCq, recvCq, if_neg counted]
  by_cases different : qp.recvCqIdentity ≠ qp.sendCqIdentity
  · simp only [if_pos different, adjustQpCount, adjustQpReferences, erased]
    rfl
  · simp only [if_neg different, adjustQpCount, adjustQpReferences, erased]
    rfl

end Destroy

theorem mrIdentities_eq_empty_iff (valid : service.Valid) {session identity : Nat}
    {pd : PdRecord} (resolved : service.pds.resolve session identity = some pd) :
    pd.mrIdentities = ∅ ↔
      ∀ mr ∈ service.mrs.entries, mr.record.pdIdentity ≠ identity := by
  have known := valid.consistent.mrIdentities _ (mem_pds valid resolved)
  constructor
  · intro empty mr member same
    have listed := (known mr.identity).mpr ⟨mr, member, rfl, same⟩
    simp [empty] at listed
  · intro unused
    rw [Finset.eq_empty_iff_forall_notMem]
    intro other listed
    obtain ⟨mr, member, -, same⟩ := (known other).mp listed
    exact unused mr member same

theorem destroyAnswers_of_valid (valid : service.Valid) : service.DestroyAnswers := by
  constructor
  case context =>
    intro session request environment context method shape resolved
    rw [destroyContext_answer valid method shape resolved,
      ← childCount_eq_zero_iff valid resolved]
    by_cases idle : context.childCount = 0 <;> simp [idle]
  case pd =>
    intro session request environment pd method shape resolved
    have noQps := valid.consistent.qpCount.zero_iff (mem_pds valid resolved)
    simp only [namesPd, decide_eq_false_iff_not] at noQps
    change _ ∧ (_ ↔ _ ∧ ∀ qp ∈ service.graph.qps, _)
    rw [destroyPd_answer valid method shape resolved,
      ← mrIdentities_eq_empty_iff valid resolved, ← noQps]
    by_cases idle : pd.mrIdentities = ∅ ∧ pd.qpCount = 0 <;> simp [idle]
  case cq =>
    intro session request environment cq method shape resolved
    have noQps := valid.consistent.qpReferences.zero_iff (mem_cqs valid resolved)
    simp only [usesCq, decide_eq_false_iff_not, not_or] at noQps
    change _ ∧ (_ ↔ ∀ qp ∈ service.graph.qps, _)
    rw [destroyCq_answer valid method shape resolved, ← noQps]
    by_cases idle : cq.qpReferences = 0 <;> simp [idle]
  case mr =>
    intro session request environment mr method shape resolved
    exact deregisterMr_answer valid method shape resolved
  case qp =>
    intro session request environment qp method shape resolved
    exact destroyQp_answer valid method shape resolved

/-- The view of a QP carries the number it was asked for. -/
theorem workerQpView_qpNum (valid : service.Valid) {qpNum : Nat} {view : WorkerQpView}
    (found : service.workerQpView qpNum = .ok view) : view.qpNum = qpNum := by
  unfold workerQpView at found
  split at found
  · cases found
  · split at found
    · cases found
    · rename_i identity indexed
      split at found
      · cases found
      · rename_i qp resolved
        obtain ⟨other, member, number, same⟩ :=
          (valid.consistent.qpNumIndex _ (List.mem_singleton_self _) (qpNum, identity)).mp
            indexed
        obtain ⟨owner, resolvedMember⟩ :=
          (GenerationRegistry.resolveAny_eq_some_iff valid.qps (by decide)).mp resolved
        have record : qp.qpNum = qpNum := by
          have equal := List.inj_on_of_nodup_map valid.distinct.qps member resolvedMember same
          rw [equal] at number
          exact number
        split at found
        · injection found with view
          rw [← view]
          exact record
        · cases found

/-- In every reachable state the records account for the live objects and destroy
requests answer by whether there are dependants. -/
theorem object_graph (catalog : List DeviceDescriptor) (events : List Event) :
    (Execution.run step (create catalog) events).Accounted ∧
      (Execution.run step (create catalog) events).DestroyAnswers :=
  ⟨accounted_of_valid (run_valid catalog events),
    destroyAnswers_of_valid (run_valid catalog events)⟩

end Ugdr.Control.QpService
