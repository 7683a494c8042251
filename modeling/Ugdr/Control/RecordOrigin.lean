import Ugdr.Control.ServiceRuns

/-! # Where records come from

Memory regions are never changed after their registration, and the queues of a
queue pair never after its creation. Every request and every disconnect changes the
two tables in one of a few ways, so what holds of the new records holds of all.
-/

namespace Ugdr.Control.QpService

open GenerationRegistry ObjectGraph Queue

variable {service : QpService} {session : OwnerSessionId} {request : ControlRequest}
  {environment : Environment}

/-! ## Memory regions -/

/-- The ways in which an event changes the table of memory regions. -/
inductive MrChange (service : QpService) : Event → QpService → Prop
  | kept {event : Event} {after : QpService} (keys : service.nextKey ≤ after.nextKey)
      (same : after.mrs.entries.Perm service.mrs.entries) : MrChange service event after
  | registered {session : OwnerSessionId} {request : ControlRequest}
      {environment : Environment} {after : QpService} {pd : PdRecord}
      {memory : ExportedCudaMemory} {mapping : CudaIpcMapping} {identity lkey rkey : Nat}
      (keys : service.nextKey ≤ after.nextKey) (lkeyFresh : service.nextKey ≤ lkey)
      (rkeyFresh : service.nextKey ≤ rkey)
      (decoded : decodeMrRegistration request.payload request.length = .ok memory)
      (opened : environment.openMemory memory = .ok mapping)
      (added : (⟨identity, session, newMrRecord request pd memory mapping lkey rkey⟩ ::
        service.mrs.entries).Perm after.mrs.entries) :
      MrChange service (.request session request environment) after
  | deregistered {session : OwnerSessionId} {request : ControlRequest}
      {environment : Environment} {after : QpService} {mr : MrRecord}
      (keys : service.nextKey ≤ after.nextKey)
      (closed : environment.closeMemory mr.mapping = none)
      (removed : service.mrs.entries.Perm
        (⟨request.objectIdentity, session, mr⟩ :: after.mrs.entries)) :
      MrChange service (.request session request environment) after
  | disconnected {session : OwnerSessionId} {after : QpService}
      (keys : service.nextKey ≤ after.nextKey)
      (remaining : after.mrs.entries =
        service.mrs.entries.filter fun entry => entry.owner ≠ session) :
      MrChange service (.disconnect session) after

/-! ## Requests on other objects -/

/-- Neither the regions nor the next key change. -/
structure KeepsRegions (before after : QpService) : Prop where
  mrs : after.mrs = before.mrs
  nextKey : after.nextKey = before.nextKey

/-- Neither table changes. -/
structure KeepsTables (before after : QpService) : Prop extends KeepsRegions before after where
  qps : after.qps = before.qps

theorem handleDeviceContext_keeps :
    KeepsTables service (handleDeviceContext service session request environment).2 := by
  unfold handleDeviceContext handleListDevices handleCreateContext handleDestroyContext
  repeat' (first | exact ⟨⟨rfl, rfl⟩, rfl⟩ | split)

theorem handleCreatePd_keeps :
    KeepsTables service (handleCreatePd service session request environment).2 := by
  unfold handleCreatePd
  repeat' (first | exact ⟨⟨rfl, rfl⟩, rfl⟩ | split)

theorem handleDestroyPd_keeps :
    KeepsTables service (handleDestroyPd service session request environment).2 := by
  unfold handleDestroyPd
  repeat' (first | exact ⟨⟨rfl, rfl⟩, rfl⟩ | split)

theorem handleCreateCq_keeps :
    KeepsTables service (handleCreateCq service session request environment).2 := by
  unfold handleCreateCq
  repeat' (first | exact ⟨⟨rfl, rfl⟩, rfl⟩ | split)

theorem handleDestroyCq_keeps :
    KeepsTables service (handleDestroyCq service session request environment).2 := by
  unfold handleDestroyCq
  repeat' (first | exact ⟨⟨rfl, rfl⟩, rfl⟩ | split)

theorem handleQueryQp_keeps :
    KeepsTables service (handleQueryQp service session request environment).2 := by
  unfold handleQueryQp
  repeat' (first | exact ⟨⟨rfl, rfl⟩, rfl⟩ | split)

theorem handleQueryQpConnInfo_keeps :
    KeepsTables service (handleQueryQpConnInfo service session request environment).2 := by
  unfold handleQueryQpConnInfo
  repeat' (first | exact ⟨⟨rfl, rfl⟩, rfl⟩ | split)

/-! ## Registration and deregistration -/

theorem publishQp_keeps {record : QpRecord} {payload : Wire.Bytes} :
    KeepsRegions service
      (publishQp service session request environment record payload).2 := by
  unfold publishQp
  split
  · exact ⟨rfl, rfl⟩
  · dsimp only
    split
    · exact ⟨rfl, rfl⟩
    · dsimp only [adjustQpCount, adjustQpReferences]
      split
      · exact ⟨rfl, rfl⟩
      · split
        · split <;> exact ⟨rfl, rfl⟩
        · exact ⟨rfl, rfl⟩

theorem handleCreateQp_keeps :
    KeepsRegions service (handleCreateQp service session request environment).2 := by
  unfold handleCreateQp
  repeat' (first | exact ⟨rfl, rfl⟩ | exact publishQp_keeps | split)

theorem handleDestroyQp_keeps :
    KeepsRegions service (handleDestroyQp service session request environment).2 := by
  unfold handleDestroyQp
  dsimp only
  repeat' (first | exact ⟨rfl, rfl⟩ | split)

theorem handleModifyQp_keeps :
    KeepsRegions service (handleModifyQp service session request environment).2 := by
  unfold handleModifyQp
  repeat' (first | exact ⟨rfl, rfl⟩ | split)

theorem handleConnectQp_keeps :
    KeepsRegions service (handleConnectQp service session request environment).2 := by
  unfold handleConnectQp
  repeat' (first | exact ⟨rfl, rfl⟩ | split)

/-- A registration that fails after the insertion takes the new region out again. -/
theorem registerMapped_mrs (valid : service.Valid) {pd : PdRecord}
    (memory : ExportedCudaMemory) (mapping : CudaIpcMapping) (lkey rkey : Nat) :
    let after := (registerMapped service session request environment pd memory mapping lkey
      rkey).2
    after.nextKey = service.nextKey ∧
      (after.mrs.entries.Perm service.mrs.entries ∨
        ∃ identity, (⟨identity, session, newMrRecord request pd memory mapping lkey rkey⟩ ::
          service.mrs.entries).Perm after.mrs.entries) := by
  unfold registerMapped
  split
  · exact ⟨rfl, .inl (.refl _)⟩
  · split
    · rename_i mrs failed
      rw [insert_eq_none valid.mrs (by decide) failed]
      exact ⟨rfl, .inl (.refl _)⟩
    · rename_i identity mrs inserted
      obtain ⟨kept, permuted, -⟩ := insert_some valid.mrs (by decide) inserted
      dsimp only
      split
      · exact ⟨rfl, .inr ⟨identity, permuted⟩⟩
      · obtain ⟨remaining, erased, -, removed, -⟩ :=
          erase_resolved kept (by decide) ((resolve_eq_some_iff kept (by decide)).mpr
            (permuted.subset (List.mem_cons_self ..)))
        rw [erased]
        exact ⟨rfl, .inl (permuted.trans removed).cons_inv.symm⟩

theorem allocateKeys_fresh {next lkey rkey following : Nat}
    (allocated : allocateKeys next = some ((lkey, rkey), following)) :
    next ≤ lkey ∧ next ≤ rkey ∧ next ≤ following := by
  unfold allocateKeys at allocated
  split at allocated
  · cases allocated
  · simp only [Option.some.injEq, Prod.mk.injEq] at allocated
    omega

theorem handleRegisterMr_change (valid : service.Valid) :
    MrChange service (.request session request environment)
      (handleRegisterMr service session request environment).2 := by
  unfold handleRegisterMr
  split
  · exact .kept (Nat.le_refl _) (.refl _)
  · split
    · exact .kept (Nat.le_refl _) (.refl _)
    · rename_i pd resolved
      split
      · exact .kept (Nat.le_refl _) (.refl _)
      · rename_i memory decoded
        split
        · exact .kept (Nat.le_refl _) (.refl _)
        · rename_i mapping opened
          split
          · exact .kept (Nat.le_refl _) (.refl _)
          · split
            · exact .kept (Nat.le_refl _) (.refl _)
            · rename_i lkey rkey nextKey allocated
              obtain ⟨lkeyFresh, rkeyFresh, later⟩ := allocateKeys_fresh allocated
              obtain ⟨keys, same | ⟨_, added⟩⟩ :=
                registerMapped_mrs (valid.withNextKey later) memory mapping lkey rkey
              · exact .kept (Nat.le_trans later (Nat.le_of_eq keys.symm)) same
              · exact .registered (Nat.le_trans later (Nat.le_of_eq keys.symm)) lkeyFresh
                  rkeyFresh decoded opened added

theorem handleDeregisterMr_change (valid : service.Valid) :
    MrChange service (.request session request environment)
      (handleDeregisterMr service session request environment).2 := by
  unfold handleDeregisterMr
  split
  · exact .kept (Nat.le_refl _) (.refl _)
  · split
    · exact .kept (Nat.le_refl _) (.refl _)
    · rename_i mr resolved
      split
      · exact .kept (Nat.le_refl _) (.refl _)
      · split
        · exact .kept (Nat.le_refl _) (.refl _)
        · rename_i closed
          split
          · exact .kept (Nat.le_refl _) (.refl _)
          · obtain ⟨remaining, erased, -, permuted, -⟩ :=
              erase_resolved valid.mrs (by decide) resolved
            rw [erased]
            exact .deregistered (Nat.le_refl _) closed permuted

theorem KeepsRegions.change {event : Event} {after : QpService}
    (keeps : KeepsRegions service after) : MrChange service event after :=
  .kept (Nat.le_of_eq keeps.nextKey.symm) (by rw [keeps.mrs])

/-- What an event does to the table of memory regions. -/
theorem step_mrs (valid : service.Valid) (event : Event) :
    MrChange service event (service.step event) := by
  cases event with
  | disconnect session =>
      exact .disconnected (Nat.le_refl _) (eraseSession_entries valid.mrs session).2
  | request session request environment =>
      simp only [step, handle]
      split
      · exact handleCreateQp_keeps.change
      · exact handleDestroyQp_keeps.change
      · exact handleQueryQp_keeps.toKeepsRegions.change
      · exact handleModifyQp_keeps.change
      · exact handleQueryQpConnInfo_keeps.toKeepsRegions.change
      · exact handleConnectQp_keeps.change
      · unfold handlePdMrCq
        split
        · exact handleCreatePd_keeps.toKeepsRegions.change
        · exact handleDestroyPd_keeps.toKeepsRegions.change
        · exact handleRegisterMr_change valid
        · exact handleDeregisterMr_change valid
        · exact handleCreateCq_keeps.toKeepsRegions.change
        · exact handleDestroyCq_keeps.toKeepsRegions.change
        · exact handleDeviceContext_keeps.toKeepsRegions.change

/-! ## Queue pairs -/

/-- The sizes of the queues and the queues themselves. -/
structure SameQueues (left right : QpRecord) : Prop where
  sq : left.sq = right.sq
  rq : left.rq = right.rq
  sendQueue : left.sendQueue = right.sendQueue
  receiveQueue : left.receiveQueue = right.receiveQueue

/-- The ways in which an event changes the table of queue pairs. -/
inductive QpChange (service : QpService) : Event → QpService → Prop
  | kept {event : Event} {after : QpService}
      (same : after.qps.entries.Perm service.qps.entries) : QpChange service event after
  | created {session : OwnerSessionId} {request : ControlRequest}
      {environment : Environment} {after : QpService} {identity : Nat} {record : QpRecord}
      {attributes : QpCreateAttributes} {pd : PdRecord} {queues : QpQueues}
      (made : createQpQueues environment.rings attributes = .ok queues)
      (same : SameQueues record (newQpRecord session request attributes pd queues))
      (added : (⟨identity, session, record⟩ :: service.qps.entries).Perm after.qps.entries) :
      QpChange service (.request session request environment) after
  | changed {event : Event} {after : QpService} {change : Entry QpRecord → Entry QpRecord}
      (entries : after.qps.entries = service.qps.entries.map change)
      (same : ∀ entry ∈ service.qps.entries, SameQueues (change entry).record entry.record) :
      QpChange service event after
  | destroyed {event : Event} {after : QpService} {entry : Entry QpRecord}
      (removed : service.qps.entries.Perm (entry :: after.qps.entries)) :
      QpChange service event after
  | disconnected {session : OwnerSessionId} {after : QpService}
      (remaining : after.qps.entries =
        service.qps.entries.filter fun entry => entry.owner ≠ session) :
      QpChange service (.disconnect session) after

theorem QpChange.of_qps_eq {event : Event} {after : QpService}
    (same : after.qps = service.qps) : QpChange service event after :=
  .kept (by rw [same])

/-- A queue pair that cannot be indexed is taken out again. -/
theorem publishQp_qps (valid : service.Valid) {record : QpRecord} {payload : Wire.Bytes} :
    let after := (publishQp service session request environment record payload).2
    after.qps.entries.Perm service.qps.entries ∨
      ∃ identity qpNum, (⟨identity, session, { record with qpNum }⟩ ::
        service.qps.entries).Perm after.qps.entries := by
  unfold publishQp
  split
  · exact .inl (.refl _)
  · dsimp only
    split
    · rename_i qps failed
      rw [insert_eq_none valid.qps (by decide) failed]
      exact .inl (.refl _)
    · rename_i identity qps inserted
      obtain ⟨kept, permuted, -⟩ := insert_some valid.qps (by decide) inserted
      have undone : (qps.erase session identity).2.entries.Perm service.qps.entries := by
        obtain ⟨remaining, erased, -, removed, -⟩ :=
          erase_resolved kept (by decide) ((resolve_eq_some_iff kept (by decide)).mpr
            (permuted.subset (List.mem_cons_self ..)))
        rw [erased]
        exact (permuted.trans removed).cons_inv.symm
      dsimp only [adjustQpCount, adjustQpReferences]
      split
      · exact .inl undone
      · split
        · right
          refine ⟨identity, service.nextQpNum, ?_⟩
          split <;> exact permuted
        · exact .inl undone

theorem handleCreateQp_change (valid : service.Valid) :
    QpChange service (.request session request environment)
      (handleCreateQp service session request environment).2 := by
  unfold handleCreateQp
  split
  · exact .kept (.refl _)
  · split
    · exact .kept (.refl _)
    · rename_i attributes decoded
      split
      · exact .kept (.refl _)
      · split
        · rename_i pd sendCq recvCq _ _ _
          split
          · exact .kept (.refl _)
          · split
            · exact .kept (.refl _)
            · rename_i queues made
              rcases publishQp_qps valid with same | ⟨identity, qpNum, added⟩
              · exact .kept same
              · have same : SameQueues
                    { newQpRecord session request attributes pd queues with qpNum }
                    (newQpRecord session request attributes pd queues) := ⟨rfl, rfl, rfl, rfl⟩
                exact .created made same added
        · exact .kept (.refl _)

theorem handleDestroyQp_change (valid : service.Valid) :
    QpChange service (.request session request environment)
      (handleDestroyQp service session request environment).2 := by
  unfold handleDestroyQp
  split
  · exact .kept (.refl _)
  · split
    · exact .kept (.refl _)
    · rename_i qp resolved
      split
      · split
        · exact .kept (.refl _)
        · obtain ⟨remaining, erased, -, permuted, -⟩ :=
            erase_resolved valid.qps (by decide) resolved
          by_cases different : qp.recvCqIdentity ≠ qp.sendCqIdentity
          · simp only [if_pos different, adjustQpCount, adjustQpReferences, erased]
            exact .destroyed permuted
          · simp only [if_neg different, adjustQpCount, adjustQpReferences, erased]
            exact .destroyed permuted
      · exact .kept (.refl _)

theorem modifiedQp_sameQueues {qp updated : QpRecord} {attributes : QpAttributes}
    {mask : UInt32} (modified : modifiedQp qp attributes mask = .ok updated) :
    SameQueues updated qp := by
  unfold modifiedQp at modified
  dsimp only at modified
  split at modified
  · cases modified
  · split at modified
    · cases modified
    · split at modified
      · cases modified
      · split at modified
        · cases modified
          exact ⟨rfl, rfl, rfl, rfl⟩
        · split at modified
          · cases modified
            exact ⟨rfl, rfl, rfl, rfl⟩
          · cases modified

/-- A store into a QP that keeps its queues. -/
theorem modifyQp_change (valid : service.Valid) {event : Event} {identity : Nat}
    {qp : QpRecord} (resolved : service.qps.resolve session identity = some qp)
    {update : QpRecord → QpRecord} (same : SameQueues (update qp) qp) :
    QpChange service event
      { service with qps := service.qps.modify session identity update } := by
  refine .changed (modify_entries_map valid.qps (by decide) resolved update) ?_
  intro entry member
  rw [Entry.adjust_record]
  split
  · rename_i here
    rw [entry_unique valid.qps member (mem_qps valid resolved) here]
    exact same
  · exact ⟨rfl, rfl, rfl, rfl⟩

theorem handleModifyQp_change (valid : service.Valid) :
    QpChange service (.request session request environment)
      (handleModifyQp service session request environment).2 := by
  unfold handleModifyQp
  split
  · exact .kept (.refl _)
  · split
    · exact .kept (.refl _)
    · split
      · exact .kept (.refl _)
      · rename_i qp resolved
        split
        · exact .kept (.refl _)
        · rename_i updated modified
          exact modifyQp_change valid resolved (modifiedQp_sameQueues modified)

theorem handleConnectQp_change (valid : service.Valid) :
    QpChange service (.request session request environment)
      (handleConnectQp service session request environment).2 := by
  unfold handleConnectQp
  split
  · exact .kept (.refl _)
  · split
    · exact .kept (.refl _)
    · split
      · exact .kept (.refl _)
      · rename_i qp resolved
        repeat' (first | exact .kept (.refl _) | split)
        exact modifyQp_change valid resolved ⟨rfl, rfl, rfl, rfl⟩

theorem handlePdMrCq_qps :
    (handlePdMrCq service session request environment).2.qps = service.qps := by
  unfold handlePdMrCq
  split
  · exact handleCreatePd_keeps.qps
  · exact handleDestroyPd_keeps.qps
  · unfold handleRegisterMr registerMapped
    repeat' (first | rfl | split)
  · unfold handleDeregisterMr
    repeat' (first | rfl | split)
  · exact handleCreateCq_keeps.qps
  · exact handleDestroyCq_keeps.qps
  · exact handleDeviceContext_keeps.qps

/-- What an event does to the table of queue pairs. -/
theorem step_qps (valid : service.Valid) (event : Event) :
    QpChange service event (service.step event) := by
  cases event with
  | disconnect session =>
      exact .disconnected (eraseSession_entries valid.qps session).2
  | request session request environment =>
      simp only [step, handle]
      split
      · exact handleCreateQp_change valid
      · exact handleDestroyQp_change valid
      · exact .of_qps_eq handleQueryQp_keeps.qps
      · exact handleModifyQp_change valid
      · exact .of_qps_eq handleQueryQpConnInfo_keeps.qps
      · exact handleConnectQp_change valid
      · exact .of_qps_eq handlePdMrCq_qps

/-! ## Properties of all records -/

/-- The invariant rule for runs of events that are all permitted. -/
theorem run_records {Permitted : Event → Prop} {Property : QpService → Prop}
    (kept : ∀ (service : QpService) (event : Event), service.Valid → Permitted event →
      Property service → Property (service.step event))
    {initial : QpService} (valid : initial.Valid) (holds : Property initial)
    {events : List Event} (permitted : ∀ event ∈ events, Permitted event) :
    Property (Execution.run step initial events) := by
  induction events generalizing initial with
  | nil => exact holds
  | cons event events induction =>
      obtain ⟨first, rest⟩ := List.forall_mem_cons.mp permitted
      exact induction (step_valid valid event) (kept initial event valid first holds) rest

/-! ## Slot strides of reachable queue pairs -/

/-- The strides of the two queues are those computed from the numbers of entries. -/
structure QpRecord.Sized (qp : QpRecord) : Prop where
  send : sendSlotStride qp.sq.maxSge = .ok qp.sendQueue.slotStride
  receive : receiveSlotStride qp.rq.maxSge = .ok qp.receiveQueue.slotStride

theorem QpRecord.Sized.congr {left right : QpRecord} (same : SameQueues left right)
    (sized : Sized right) : Sized left := by
  refine ⟨?_, ?_⟩
  · rw [same.sq, same.sendQueue]
    exact sized.send
  · rw [same.rq, same.receiveQueue]
    exact sized.receive

theorem createQpQueues_sized {rings : RingSystemCalls} {attributes : QpCreateAttributes}
    {queues : QpQueues} (made : createQpQueues rings attributes = .ok queues) :
    sendSlotStride attributes.maxSendSge = .ok queues.sendQueue.slotStride ∧
      receiveSlotStride attributes.maxRecvSge = .ok queues.receiveQueue.slotStride := by
  unfold createQpQueues at made
  cases send : sendSlotStride attributes.maxSendSge with
  | error status => simp [send, bind, Except.bind] at made
  | ok sendStride =>
      cases receive : receiveSlotStride attributes.maxRecvSge with
      | error status => simp [send, receive, bind, Except.bind] at made
      | ok receiveStride =>
          simp only [send, receive, bind, Except.bind] at made
          split at made
          · cases made
          · rename_i sendQueue sendMade
            split at made
            · cases made
            · rename_i receiveQueue receiveMade
              rw [(createSharedRing_eq_ok sendMade).1, (createSharedRing_eq_ok receiveMade).1]
                at made
              split at made
              · cases made
              · split at made
                · cases made
                · split at made
                  · cases made
                  · injection made with same
                    rw [← same]
                    exact ⟨rfl, rfl⟩

def QpsSized (service : QpService) : Prop :=
  ∀ entry ∈ service.qps.entries, QpRecord.Sized entry.record

theorem QpChange.sized {event : Event} {after : QpService}
    (change : QpChange service event after) (sized : service.QpsSized) : after.QpsSized := by
  intro entry member
  cases change with
  | kept same => exact sized entry (same.subset member)
  | created made same added =>
      rcases List.mem_cons.mp (added.symm.subset member) with rfl | before
      · obtain ⟨send, receive⟩ := createQpQueues_sized made
        exact .congr same ⟨send, receive⟩
      · exact sized entry before
  | changed entries same =>
      rw [entries] at member
      obtain ⟨old, before, rfl⟩ := List.mem_map.mp member
      exact .congr (same old before) (sized old before)
  | destroyed removed => exact sized entry (removed.symm.subset (List.mem_cons_of_mem _ member))
  | disconnected remaining =>
      rw [remaining] at member
      exact sized entry (List.mem_of_mem_filter member)

theorem Reachable.sized (reachable : service.Reachable) : service.QpsSized := by
  obtain ⟨catalog, events, rfl⟩ := reachable
  have initial : (create catalog).QpsSized := nofun
  refine run_records ?_ (create_valid catalog) initial fun _ _ => trivial
  intro service event valid _ sized
  exact (step_qps valid event).sized sized

/-- The view of a worker shows the record of a live queue pair. -/
theorem workerQpView_record (valid : service.Valid) {qpNum : Nat} {view : WorkerQpView}
    (found : service.workerQpView qpNum = .ok view) :
    ∃ entry ∈ service.qps.entries, entry.record.qpNum = qpNum ∧
      view.sessionId = entry.record.ownerSession ∧
      view.pdIdentity = entry.record.pdIdentity ∧
      view.maxSendSge = entry.record.sq.maxSge ∧
      view.maxRecvSge = entry.record.rq.maxSge ∧
      view.sendQueue = entry.record.sendQueue ∧
      view.receiveQueue = entry.record.receiveQueue := by
  have number := workerQpView_qpNum valid found
  unfold workerQpView at found
  split at found
  · cases found
  · split at found
    · cases found
    · split at found
      · cases found
      · rename_i qp resolved
        obtain ⟨owner, member⟩ := (resolveAny_eq_some_iff valid.qps (by decide)).mp resolved
        split at found
        · injection found with same
          subst same
          exact ⟨_, member, number, rfl, rfl, rfl, rfl, rfl, rfl⟩
        · cases found

/-! ## Mappings of reachable memory regions -/

/-- A region lies inside its allocation, and its daemon addresses are those of the
mapping. -/
structure MrRecord.Mapped (mr : MrRecord) : Prop where
  daemonAddress : mr.daemonAddress = mr.mapping.daemonBaseAddress + mr.allocationOffset
  inside : mr.allocationOffset + mr.length ≤ mr.allocationSize
  fits : mr.mapping.daemonBaseAddress + mr.allocationSize < 2 ^ 64

/-- The memory backend maps allocations below the end of the address space. -/
def Event.MapsBelow : Event → Prop
  | .request _ _ environment => ∀ memory mapping, environment.openMemory memory = .ok mapping →
      mapping.daemonBaseAddress + memory.allocationSize < 2 ^ 64
  | .disconnect _ => True

/-- Reachable with a memory backend that maps below the end of the address space. -/
def ReachableMapped (service : QpService) : Prop :=
  ∃ catalog events, (∀ event ∈ events, Event.MapsBelow event) ∧
    service = Execution.run step (create catalog) events

theorem ReachableMapped.reachable (reachable : service.ReachableMapped) : service.Reachable := by
  obtain ⟨catalog, events, -, same⟩ := reachable
  exact ⟨catalog, events, same⟩

theorem decodeMrRegistration_valid {bytes : Wire.Bytes} {length : Nat}
    {memory : ExportedCudaMemory} (decoded : decodeMrRegistration bytes length = .ok memory) :
    validMemory memory = true := by
  unfold decodeMrRegistration at decoded
  repeat' (first | cases decoded; done | split at decoded)
  rename_i valid
  injection decoded with same
  rw [← same]
  exact Bool.not_eq_false _ ▸ valid

def MrsMapped (service : QpService) : Prop :=
  ∀ entry ∈ service.mrs.entries, MrRecord.Mapped entry.record

theorem MrChange.mapped {event : Event} {after : QpService}
    (change : MrChange service event after) (maps : event.MapsBelow)
    (mapped : service.MrsMapped) : after.MrsMapped := by
  intro entry member
  cases change with
  | kept _ same => exact mapped entry (same.subset member)
  | registered _ _ _ decoded opened added =>
      rcases List.mem_cons.mp (added.symm.subset member) with rfl | before
      · have valid := decodeMrRegistration_valid decoded
        simp only [validMemory, decide_eq_true_eq, not_or, Nat.not_lt] at valid
        exact ⟨rfl, by dsimp only [newMrRecord]; omega, maps _ _ opened⟩
      · exact mapped entry before
  | deregistered _ _ removed =>
      exact mapped entry (removed.symm.subset (List.mem_cons_of_mem _ member))
  | disconnected _ remaining =>
      rw [remaining] at member
      exact mapped entry (List.mem_of_mem_filter member)

theorem ReachableMapped.mapped (reachable : service.ReachableMapped) : service.MrsMapped := by
  obtain ⟨catalog, events, maps, rfl⟩ := reachable
  have initial : (create catalog).MrsMapped := nofun
  refine run_records ?_ (create_valid catalog) initial maps
  intro service event valid below mapped
  exact (step_mrs valid event).mapped below mapped

end Ugdr.Control.QpService
