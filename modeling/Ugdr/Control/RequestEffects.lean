import Ugdr.Control.ServiceRuns

/-! # What a request does

A request that is answered with an error leaves all objects as they are; only the
counters for keys and queue-pair numbers may have advanced. A request that is answered
with success changes its target and the counts and indexes of the objects the target
belongs to.
-/

namespace Ugdr.Control

open GenerationRegistry Wire

namespace ObjectGraph

/-- The same objects, indexes and counters; tables are compared as sets. -/
structure Same (left right : ObjectGraph) : Prop where
  contexts : left.contexts.Perm right.contexts
  pds : left.pds.Perm right.pds
  mrs : left.mrs.Perm right.mrs
  cqs : left.cqs.Perm right.cqs
  qps : left.qps.Perm right.qps
  nextKey : left.nextKey = right.nextKey
  qpNumIndex : left.qpNumIndex = right.qpNumIndex
  nextQpNum : left.nextQpNum = right.nextQpNum

theorem Same.refl (graph : ObjectGraph) : graph.Same graph :=
  ⟨.refl _, .refl _, .refl _, .refl _, .refl _, rfl, rfl, rfl⟩

end ObjectGraph

namespace QpService

open ObjectGraph

variable {service : QpService} {session : OwnerSessionId} {request : ControlRequest}
  {environment : Environment}

/-- What a successful request does to the objects. Its constructors are named after the
methods. -/
inductive Applied (service : QpService) (session : OwnerSessionId) (request : ControlRequest)
    (environment : Environment) (response : ControlResponse) : ObjectGraph → Prop
  | observed
      (method : ControlMethod.ofCode request.method = some .listDevices ∨
        ControlMethod.ofCode request.method = some .queryQp ∨
        ControlMethod.ofCode request.method = some .queryQpConnInfo) :
      Applied service session request environment response service.graph
  | createContext (method : ControlMethod.ofCode request.method = some .createContext)
      (fresh : response.objectIdentity ∉ service.graph.contexts.map Entry.identity) :
      Applied service session request environment response
        { service.graph with
          contexts :=
            ⟨response.objectIdentity, session, { deviceIdentity := request.objectIdentity }⟩ ::
              service.graph.contexts }
  | destroyContext (context : ContextRecord) (contexts : List (Entry ContextRecord))
      (method : ControlMethod.ofCode request.method = some .destroyContext)
      (removed : service.graph.contexts.Perm
        (⟨request.objectIdentity, session, context⟩ :: contexts)) :
      Applied service session request environment response { service.graph with contexts }
  | createPd (method : ControlMethod.ofCode request.method = some .createPd)
      (fresh : response.objectIdentity ∉ service.graph.pds.map Entry.identity) :
      Applied service session request environment response
        { service.graph with
          contexts :=
            service.graph.contexts.map (adjustChildren request.objectIdentity (· + 1))
          pds :=
            ⟨response.objectIdentity, session, { contextIdentity := request.objectIdentity }⟩ ::
              service.graph.pds }
  | destroyPd (pd : PdRecord) (pds : List (Entry PdRecord))
      (method : ControlMethod.ofCode request.method = some .destroyPd)
      (removed : service.graph.pds.Perm (⟨request.objectIdentity, session, pd⟩ :: pds)) :
      Applied service session request environment response
        { service.graph with
          contexts := service.graph.contexts.map (adjustChildren pd.contextIdentity (· - 1))
          pds }
  | registerMr (pd : PdRecord) (memory : ExportedCudaMemory) (mapping : CudaIpcMapping)
      (method : ControlMethod.ofCode request.method = some .registerMr)
      (parent : ⟨request.objectIdentity, session, pd⟩ ∈ service.graph.pds)
      (opened : environment.openMemory memory = .ok mapping)
      (available : service.nextKey ≠ 0 ∧ service.nextKey ≤ 2 ^ 32 - 2)
      (fresh : response.objectIdentity ∉ service.graph.mrs.map Entry.identity) :
      Applied service session request environment response
        { service.graph with
          pds := service.graph.pds.map (Entry.adjust request.objectIdentity
            (relatedPd response.objectIdentity service.nextKey (service.nextKey + 1)))
          mrs :=
            ⟨response.objectIdentity, session,
                newMrRecord request pd memory mapping service.nextKey (service.nextKey + 1)⟩ ::
              service.graph.mrs
          nextKey := service.nextKey + 2 }
  | deregisterMr (mr : MrRecord) (mrs : List (Entry MrRecord))
      (method : ControlMethod.ofCode request.method = some .deregisterMr)
      (closed : environment.closeMemory mr.mapping = none)
      (removed : service.graph.mrs.Perm (⟨request.objectIdentity, session, mr⟩ :: mrs)) :
      Applied service session request environment response
        { service.graph with
          pds := service.graph.pds.map (Entry.adjust mr.pdIdentity fun pd =>
            unrelateMr pd request.objectIdentity mr.lkey mr.rkey)
          mrs }
  | createCq (completions : Queue.QueueDescriptor)
      (method : ControlMethod.ofCode request.method = some .createCq)
      (fresh : response.objectIdentity ∉ service.graph.cqs.map Entry.identity) :
      Applied service session request environment response
        { service.graph with
          contexts :=
            service.graph.contexts.map (adjustChildren request.objectIdentity (· + 1))
          cqs :=
            ⟨response.objectIdentity, session,
                ⟨request.objectIdentity, request.length, 0, completions⟩⟩ ::
              service.graph.cqs }
  | destroyCq (cq : CqRecord) (cqs : List (Entry CqRecord))
      (method : ControlMethod.ofCode request.method = some .destroyCq)
      (removed : service.graph.cqs.Perm (⟨request.objectIdentity, session, cq⟩ :: cqs)) :
      Applied service session request environment response
        { service.graph with
          contexts := service.graph.contexts.map (adjustChildren cq.contextIdentity (· - 1))
          cqs }
  | createQp (attributes : QpCreateAttributes) (pd : PdRecord) (queues : QpQueues)
      (method : ControlMethod.ofCode request.method = some .createQp)
      (available : service.nextQpNum ≠ 0)
      (fresh : response.objectIdentity ∉ service.graph.qps.map Entry.identity) :
      Applied service session request environment response
        { service.graph with
          pds := service.graph.pds.map (adjustQps request.objectIdentity (· + 1))
          cqs := service.graph.cqs.map
            (adjustCqs attributes.sendCqIdentity attributes.recvCqIdentity (· + 1))
          qps :=
            ⟨response.objectIdentity, session,
                { newQpRecord session request attributes pd queues with
                  qpNum := service.nextQpNum }⟩ ::
              service.graph.qps
          qpNumIndex :=
            Function.update service.qpNumIndex service.nextQpNum (some response.objectIdentity)
          nextQpNum := (service.nextQpNum + 1) % 2 ^ 32 }
  | destroyQp (qp : QpRecord) (qps : List (Entry QpRecord))
      (method : ControlMethod.ofCode request.method = some .destroyQp)
      (removed : service.graph.qps.Perm (⟨request.objectIdentity, session, qp⟩ :: qps)) :
      Applied service session request environment response
        { service.graph with
          pds := service.graph.pds.map (adjustQps qp.pdIdentity (· - 1))
          cqs := service.graph.cqs.map
            (adjustCqs qp.sendCqIdentity qp.recvCqIdentity (· - 1))
          qps
          qpNumIndex := Function.update service.qpNumIndex qp.qpNum none }
  | modifyQp (attributes : QpAttributes) (mask : UInt32) (qp updated : QpRecord)
      (method : ControlMethod.ofCode request.method = some .modifyQp)
      (decoded : decodeModifyPayload request.payload = .ok (attributes, mask))
      (target : ⟨request.objectIdentity, session, qp⟩ ∈ service.graph.qps)
      (modified : modifiedQp qp attributes mask = .ok updated) :
      Applied service session request environment response
        { service.graph with
          qps := service.graph.qps.map
            (Entry.adjust request.objectIdentity fun _ => updated) }
  | connectQp (remoteQpNum remoteIdentity : Nat) (attributes : QpAttributes) (mask : UInt32)
      (qp remote : QpRecord)
      (method : ControlMethod.ofCode request.method = some .connectQp)
      (decoded : decodeConnectPayload request.payload = .ok (remoteQpNum, attributes, mask))
      (target : ⟨request.objectIdentity, session, qp⟩ ∈ service.graph.qps)
      (checked : remoteQpNum ≠ 0 ∧ mask = qpConnectMask ∧
        validRetryAttributes attributes = true)
      (unbound : qp.peerQpNum = 0 ∨ qp.peerQpNum = remoteQpNum)
      (ready : qp.state = qpStateInit)
      (indexed : service.qpNumIndex remoteQpNum = some remoteIdentity)
      (found : service.qps.resolveAny remoteIdentity = some remote)
      (accepts : remote.qpType = qpTypeRc ∧ (remote.state = qpStateInit ∨
        remote.state = qpStateRtr ∨ remote.state = qpStateRts)) :
      Applied service session request environment response
        { service.graph with
          qps := service.graph.qps.map (Entry.adjust request.objectIdentity fun qp =>
            connectedQp qp remoteQpNum remoteIdentity attributes) }

/-- A refused request leaves the objects and indexes; it may have used up a pair of keys
or a queue-pair number. -/
structure Refused (service after : QpService) : Prop where
  same : after.graph.Same
    { service.graph with nextKey := after.nextKey, nextQpNum := after.nextQpNum }
  nextKey : after.nextKey = service.nextKey ∨
    service.nextKey ≤ 2 ^ 32 - 2 ∧ after.nextKey = service.nextKey + 2
  nextQpNum : after.nextQpNum = service.nextQpNum ∨
    service.nextQpNum ≠ 0 ∧ after.nextQpNum = (service.nextQpNum + 1) % 2 ^ 32

/-- A request is refused as a whole or applied as a whole. -/
structure Outcome (service : QpService) (session : OwnerSessionId) (request : ControlRequest)
    (environment : Environment) (result : ControlResponse × QpService) : Prop where
  catalog : result.2.catalog = service.catalog
  refused : result.1.status ≠ none → Refused service result.2
  applied : result.1.status = none →
    ∃ graph, Applied service session request environment result.1 graph ∧
      result.2.graph.Same graph

theorem Refused.refl (service : QpService) : Refused service service where
  same := .refl _
  nextKey := .inl rfl
  nextQpNum := .inl rfl

namespace Outcome

theorem error {status : Errno} {response : ControlResponse}
    (answer : response.status = some status) :
    Outcome service session request environment (response, service) where
  catalog := rfl
  refused := fun _ => .refl service
  applied := fun ok => by simp [answer] at ok

theorem withdrawn {status : Errno} {response : ControlResponse} {after : QpService}
    (answer : response.status = some status) (catalog : after.catalog = service.catalog)
    (refused : Refused service after) :
    Outcome service session request environment (response, after) where
  catalog := catalog
  refused := fun _ => refused
  applied := fun ok => by simp [answer] at ok

theorem success {response : ControlResponse} {after : QpService} {graph : ObjectGraph}
    (answer : response.status = none) (catalog : after.catalog = service.catalog)
    (applied : Applied service session request environment response graph)
    (same : after.graph.Same graph) :
    Outcome service session request environment (response, after) where
  catalog := catalog
  refused := fun failed => absurd answer failed
  applied := fun _ => ⟨graph, applied, same⟩

end Outcome

/-! ## Devices and contexts -/

theorem handleListDevices_outcome
    (method : ControlMethod.ofCode request.method = some .listDevices) :
    Outcome service session request environment
      (handleListDevices service session request environment) := by
  unfold handleListDevices
  split
  · exact .error rfl
  · split
    · exact .error rfl
    · exact .success rfl rfl (.observed (.inl method)) (.refl _)

theorem handleCreateContext_outcome (valid : service.Valid)
    (method : ControlMethod.ofCode request.method = some .createContext) :
    Outcome service session request environment
      (handleCreateContext service session request environment) := by
  unfold handleCreateContext
  split
  · exact .error rfl
  · split
    · rename_i contexts failed
      rw [insert_eq_none valid.contexts (by decide) failed]
      exact .error rfl
    · rename_i identity contexts inserted
      obtain ⟨-, permuted, fresh⟩ := insert_some valid.contexts (by decide) inserted
      exact .success rfl rfl (.createContext method fresh)
        { ObjectGraph.Same.refl _ with contexts := permuted.symm }

theorem handleDestroyContext_outcome (valid : service.Valid)
    (method : ControlMethod.ofCode request.method = some .destroyContext) :
    Outcome service session request environment
      (handleDestroyContext service session request environment) := by
  unfold handleDestroyContext
  split
  · exact .error rfl
  · rename_i context resolved
    split
    · exact .error rfl
    · obtain ⟨remaining, erased, -, removed, -⟩ :=
        erase_resolved valid.contexts (by decide) resolved
      rw [erased]
      exact .success rfl rfl (.destroyContext context _ method removed) (.refl _)

theorem handleDeviceContext_outcome (valid : service.Valid) :
    Outcome service session request environment
      (handleDeviceContext service session request environment) := by
  unfold handleDeviceContext
  split
  · exact .error rfl
  · split
    · exact handleListDevices_outcome ‹_›
    · exact handleCreateContext_outcome valid ‹_›
    · exact handleDestroyContext_outcome valid ‹_›
    · exact .error rfl

/-! ## Protection domains and completion queues -/

theorem handleCreatePd_outcome (valid : service.Valid)
    (method : ControlMethod.ofCode request.method = some .createPd) :
    Outcome service session request environment
      (handleCreatePd service session request environment) := by
  unfold handleCreatePd
  split
  · exact .error rfl
  · split
    · exact .error rfl
    · rename_i context resolved
      split
      · rename_i pds failed
        rw [insert_eq_none valid.pds (by decide) failed]
        exact .error rfl
      · rename_i identity pds inserted
        obtain ⟨-, permuted, fresh⟩ := insert_some valid.pds (by decide) inserted
        have counted := adjustChildCount_entries valid resolved (· + 1)
        exact .success rfl rfl (.createPd method fresh)
          { ObjectGraph.Same.refl _ with
            contexts := .of_eq counted
            pds := permuted.symm }

theorem handleDestroyPd_outcome (valid : service.Valid)
    (method : ControlMethod.ofCode request.method = some .destroyPd) :
    Outcome service session request environment
      (handleDestroyPd service session request environment) := by
  unfold handleDestroyPd
  split
  · exact .error rfl
  · split
    · exact .error rfl
    · rename_i pd resolved
      split
      · exact .error rfl
      · split
        · exact .error rfl
        · rename_i context parent
          split
          · exact .error rfl
          · obtain ⟨remaining, erased, -, removed, -⟩ :=
              erase_resolved valid.pds (by decide) resolved
            rw [erased]
            have counted := adjustChildCount_entries valid parent (· - 1)
            exact .success rfl rfl (.destroyPd pd _ method removed)
              { ObjectGraph.Same.refl _ with contexts := .of_eq counted }

theorem handleCreateCq_outcome (valid : service.Valid)
    (method : ControlMethod.ofCode request.method = some .createCq) :
    Outcome service session request environment
      (handleCreateCq service session request environment) := by
  unfold handleCreateCq
  split
  · exact .error rfl
  · split
    · exact .error rfl
    · rename_i context resolved
      split
      · exact .error rfl
      · rename_i completions _
        split
        · exact .error rfl
        · split
          · exact .error rfl
          · split
            · rename_i cqs failed
              rw [insert_eq_none valid.cqs (by decide) failed]
              exact .error rfl
            · rename_i identity cqs inserted
              obtain ⟨-, permuted, fresh⟩ := insert_some valid.cqs (by decide) inserted
              have counted := adjustChildCount_entries valid resolved (· + 1)
              exact .success rfl rfl (.createCq completions method fresh)
                { ObjectGraph.Same.refl _ with
                  contexts := .of_eq counted
                  cqs := permuted.symm }

theorem handleDestroyCq_outcome (valid : service.Valid)
    (method : ControlMethod.ofCode request.method = some .destroyCq) :
    Outcome service session request environment
      (handleDestroyCq service session request environment) := by
  unfold handleDestroyCq
  split
  · exact .error rfl
  · split
    · exact .error rfl
    · rename_i cq resolved
      split
      · exact .error rfl
      · split
        · exact .error rfl
        · rename_i context parent
          split
          · exact .error rfl
          · obtain ⟨remaining, erased, -, removed, -⟩ :=
              erase_resolved valid.cqs (by decide) resolved
            rw [erased]
            have counted := adjustChildCount_entries valid parent (· - 1)
            exact .success rfl rfl (.destroyCq cq _ method removed)
              { ObjectGraph.Same.refl _ with contexts := .of_eq counted }

/-! ## Memory regions -/

/-- Inserting a record and taking it out again leaves the entries. -/
theorem undo_insert {Record : Type} {type : ObjectType}
    {registry inserted : GenerationRegistry Record type} (typed : type ≠ .invalid)
    {identity : Nat} {record : Record} (kept : inserted.WellFormed)
    (permuted : (⟨identity, session, record⟩ :: registry.entries).Perm inserted.entries) :
    (inserted.erase session identity).2.entries.Perm registry.entries := by
  obtain ⟨remaining, erased, -, removed, -⟩ :=
    erase_resolved kept typed ((resolve_eq_some_iff kept typed).mpr
      (permuted.subset (List.mem_cons_self ..)))
  rw [erased]
  exact (permuted.trans removed).cons_inv.symm

theorem registerMapped_outcome (valid : service.Valid)
    (method : ControlMethod.ofCode request.method = some .registerMr) {pd : PdRecord}
    (resolved : service.pds.resolve session request.objectIdentity = some pd)
    {memory : ExportedCudaMemory} {mapping : CudaIpcMapping}
    (opened : environment.openMemory memory = .ok mapping)
    (available : service.nextKey ≠ 0 ∧ service.nextKey ≤ 2 ^ 32 - 2) :
    Outcome service session request environment
      (registerMapped { service with nextKey := service.nextKey + 2 } session request
        environment pd memory mapping service.nextKey (service.nextKey + 1)) := by
  have spent : Refused service { service with nextKey := service.nextKey + 2 } :=
    { same := .refl _, nextKey := .inr ⟨available.2, rfl⟩, nextQpNum := .inl rfl }
  unfold registerMapped
  split
  · exact .withdrawn rfl rfl spent
  · split
    · rename_i mrs failed
      rw [insert_eq_none valid.mrs (by decide) failed]
      exact .withdrawn rfl rfl spent
    · rename_i identity mrs inserted
      obtain ⟨kept, permuted, fresh⟩ := insert_some valid.mrs (by decide) inserted
      have newMr : identity ∉ pd.mrIdentities := by
        intro known
        obtain ⟨mr, member, same, -⟩ :=
          (valid.consistent.mrIdentities _ (mem_pds valid resolved) identity).mp known
        exact fresh (List.mem_map.mpr ⟨mr, member, same⟩)
      have newLocal := (fresh_keys valid resolved (Nat.le_refl _)).1
      have newRemote := (fresh_keys valid resolved (Nat.le_add_right _ 1)).2
      rcases relateMr_cases newMr newLocal newRemote with added | ⟨failed, restored⟩
      · rw [added]
        have related := modify_const_entries valid.pds (by decide) resolved
          (relatedPd identity service.nextKey (service.nextKey + 1))
        exact .success rfl rfl
          (.registerMr pd memory mapping method (mem_pds valid resolved) opened available fresh)
          { ObjectGraph.Same.refl _ with
            pds := .of_eq related
            mrs := permuted.symm }
      · have sameMrs : (mrs.erase session identity).2.entries.Perm service.mrs.entries :=
          undo_insert (by decide) kept permuted
        have samePds := modify_const_entries valid.pds (by decide) resolved id
        rw [List.map_congr_left (fun entry _ => adjust_id entry), List.map_id] at samePds
        generalize relateMr environment.tableInsertions pd identity service.nextKey
          (service.nextKey + 1) = outcome at failed restored
        obtain ⟨flag, related⟩ := outcome
        simp only at failed restored
        simp only [failed, restored]
        refine .withdrawn rfl rfl { spent with same := ?_ }
        exact { ObjectGraph.Same.refl _ with pds := .of_eq samePds, mrs := sameMrs }

theorem handleRegisterMr_outcome (valid : service.Valid)
    (method : ControlMethod.ofCode request.method = some .registerMr) :
    Outcome service session request environment
      (handleRegisterMr service session request environment) := by
  unfold handleRegisterMr
  split
  · exact .error rfl
  · split
    · exact .error rfl
    · rename_i pd resolved
      split
      · exact .error rfl
      · split
        · exact .error rfl
        · rename_i mapping opened
          split
          · exact .error rfl
          · split
            · exact .error rfl
            · rename_i lkey rkey nextKey allocated
              unfold allocateKeys at allocated
              split at allocated
              · cases allocated
              · rename_i available
                simp only [Option.some.injEq, Prod.mk.injEq] at allocated
                obtain ⟨⟨rfl, rfl⟩, rfl⟩ := allocated
                exact registerMapped_outcome valid method resolved opened (by omega)

theorem handleDeregisterMr_outcome (valid : service.Valid)
    (method : ControlMethod.ofCode request.method = some .deregisterMr) :
    Outcome service session request environment
      (handleDeregisterMr service session request environment) := by
  unfold handleDeregisterMr
  split
  · exact .error rfl
  · split
    · exact .error rfl
    · rename_i mr resolved
      split
      · exact .error rfl
      · split
        · exact .error rfl
        · rename_i closed
          split
          · exact .error rfl
          · rename_i pd parent
            obtain ⟨remaining, erased, -, removed, -⟩ :=
              erase_resolved valid.mrs (by decide) resolved
            rw [erased]
            have unrelated := modify_entries_map valid.pds (by decide) parent fun pd =>
              unrelateMr pd request.objectIdentity mr.lkey mr.rkey
            exact .success rfl rfl (.deregisterMr mr _ method closed removed)
              { ObjectGraph.Same.refl _ with pds := .of_eq unrelated }

theorem handlePdMrCq_outcome (valid : service.Valid) :
    Outcome service session request environment
      (handlePdMrCq service session request environment) := by
  unfold handlePdMrCq
  split
  · exact handleCreatePd_outcome valid ‹_›
  · exact handleDestroyPd_outcome valid ‹_›
  · exact handleRegisterMr_outcome valid ‹_›
  · exact handleDeregisterMr_outcome valid ‹_›
  · exact handleCreateCq_outcome valid ‹_›
  · exact handleDestroyCq_outcome valid ‹_›
  · exact handleDeviceContext_outcome valid

/-! ## Queue pairs -/

theorem publishQp_outcome (valid : service.Valid)
    (method : ControlMethod.ofCode request.method = some .createQp)
    {attributes : QpCreateAttributes} {pd : PdRecord} {queues : QpQueues}
    {sendCq recvCq : CqRecord} {payload : Bytes}
    (pdResolved : service.pds.resolve session request.objectIdentity = some pd)
    (sendResolved : service.cqs.resolve session attributes.sendCqIdentity = some sendCq)
    (recvResolved : service.cqs.resolve session attributes.recvCqIdentity = some recvCq) :
    Outcome service session request environment
      (publishQp service session request environment
        (newQpRecord session request attributes pd queues) payload) := by
  unfold publishQp
  split
  · exact .error rfl
  · rename_i available
    have spent : Refused service
        { service with nextQpNum := (service.nextQpNum + 1) % 2 ^ 32 } :=
      { same := .refl _, nextKey := .inl rfl, nextQpNum := .inr ⟨available, rfl⟩ }
    obtain ⟨-, free⟩ := fresh_qpNum valid available
    dsimp only
    split
    · rename_i qps failed
      rw [insert_eq_none valid.qps (by decide) failed]
      exact .withdrawn rfl rfl spent
    · rename_i identity qps inserted
      obtain ⟨kept, permuted, fresh⟩ := insert_some valid.qps (by decide) inserted
      have undone : (qps.erase session identity).2.entries.Perm service.qps.entries :=
        undo_insert (by decide) kept permuted
      simp only [emplace, free]
      split
      · refine .withdrawn rfl rfl { spent with same := ?_ }
        exact { ObjectGraph.Same.refl _ with qps := undone }
      · have pds := adjustQpCount_entries valid.pds pdResolved (· + 1)
        have cqs := countCqs_entries valid.cqs sendResolved recvResolved (· + 1)
        rw [if_pos trivial]
        unfold countCqs at cqs
        split
        · rename_i different
          simp only [newQpRecord] at different
          rw [if_pos different] at cqs
          exact .success rfl rfl (.createQp attributes pd queues method available fresh)
            { ObjectGraph.Same.refl _ with
              pds := .of_eq pds
              cqs := .of_eq cqs
              qps := permuted.symm }
        · rename_i same
          simp only [newQpRecord] at same
          rw [if_neg same] at cqs
          exact .success rfl rfl (.createQp attributes pd queues method available fresh)
            { ObjectGraph.Same.refl _ with
              pds := .of_eq pds
              cqs := .of_eq cqs
              qps := permuted.symm }

theorem handleCreateQp_outcome (valid : service.Valid)
    (method : ControlMethod.ofCode request.method = some .createQp) :
    Outcome service session request environment
      (handleCreateQp service session request environment) := by
  unfold handleCreateQp
  split
  · exact .error rfl
  · split
    · exact .error rfl
    · split
      · exact .error rfl
      · split
        · rename_i pd sendCq recvCq pdResolved sendResolved recvResolved
          split
          · exact .error rfl
          · split
            · exact .error rfl
            · exact publishQp_outcome valid method pdResolved sendResolved recvResolved
        · exact .error rfl

theorem handleDestroyQp_outcome (valid : service.Valid)
    (method : ControlMethod.ofCode request.method = some .destroyQp) :
    Outcome service session request environment
      (handleDestroyQp service session request environment) := by
  unfold handleDestroyQp
  split
  · exact .error rfl
  · split
    · exact .error rfl
    · rename_i qp resolved
      split
      · rename_i pd sendCq recvCq pdResolved sendResolved recvResolved
        split
        · exact .error rfl
        · obtain ⟨remaining, erased, -, removed, -⟩ :=
            erase_resolved valid.qps (by decide) resolved
          have pds := adjustQpCount_entries valid.pds pdResolved (· - 1)
          have cqs := countCqs_entries valid.cqs sendResolved recvResolved (· - 1)
          unfold countCqs at cqs
          by_cases different : qp.recvCqIdentity ≠ qp.sendCqIdentity
          · rw [if_pos different] at cqs
            simp only [if_pos different, adjustQpCount, adjustQpReferences, erased]
            exact .success rfl rfl (.destroyQp qp remaining.entries method removed)
              { ObjectGraph.Same.refl _ with pds := .of_eq pds, cqs := .of_eq cqs }
          · rw [if_neg different] at cqs
            simp only [if_neg different, adjustQpCount, adjustQpReferences, erased]
            exact .success rfl rfl (.destroyQp qp remaining.entries method removed)
              { ObjectGraph.Same.refl _ with pds := .of_eq pds, cqs := .of_eq cqs }
      · exact .error rfl

theorem handleQueryQp_outcome
    (method : ControlMethod.ofCode request.method = some .queryQp) :
    Outcome service session request environment
      (handleQueryQp service session request environment) := by
  unfold handleQueryQp
  split
  · exact .error rfl
  · split
    · exact .error rfl
    · split
      · exact .error rfl
      · split
        · exact .error rfl
        · exact .success rfl rfl (.observed (.inr (.inl method))) (.refl _)

theorem handleQueryQpConnInfo_outcome
    (method : ControlMethod.ofCode request.method = some .queryQpConnInfo) :
    Outcome service session request environment
      (handleQueryQpConnInfo service session request environment) := by
  unfold handleQueryQpConnInfo
  split
  · exact .error rfl
  · split
    · exact .error rfl
    · exact .success rfl rfl (.observed (.inr (.inr method))) (.refl _)

theorem handleModifyQp_outcome (valid : service.Valid)
    (method : ControlMethod.ofCode request.method = some .modifyQp) :
    Outcome service session request environment
      (handleModifyQp service session request environment) := by
  unfold handleModifyQp
  split
  · exact .error rfl
  · split
    · exact .error rfl
    · rename_i attributes mask decoded
      split
      · exact .error rfl
      · rename_i qp resolved
        split
        · exact .error rfl
        · rename_i updated modified
          have entries := modify_entries_map valid.qps (by decide) resolved fun _ => updated
          exact .success rfl rfl
            (.modifyQp attributes mask qp updated method decoded (mem_qps valid resolved)
              modified)
            { ObjectGraph.Same.refl _ with qps := .of_eq entries }

theorem handleConnectQp_outcome (valid : service.Valid)
    (method : ControlMethod.ofCode request.method = some .connectQp) :
    Outcome service session request environment
      (handleConnectQp service session request environment) := by
  unfold handleConnectQp
  split
  · exact .error rfl
  · split
    · exact .error rfl
    · rename_i remoteQpNum attributes mask decoded
      split
      · exact .error rfl
      · rename_i qp resolved
        split
        · exact .error rfl
        · rename_i checked
          rw [not_or, not_or, not_not, Bool.not_eq_false] at checked
          split
          · exact .error rfl
          · rename_i unbound
            rw [not_and_or, not_not, not_not] at unbound
            split
            · exact .error rfl
            · rename_i ready
              rw [not_not] at ready
              split
              · exact .error rfl
              · rename_i remoteIdentity indexed
                split
                · exact .error rfl
                · rename_i remote found
                  split
                  · exact .error rfl
                  · rename_i accepts
                    have accepts : remote.qpType = qpTypeRc ∧ (remote.state = qpStateInit ∨
                        remote.state = qpStateRtr ∨ remote.state = qpStateRts) := by
                      tauto
                    have entries := modify_entries_map valid.qps (by decide) resolved fun qp =>
                      connectedQp qp remoteQpNum remoteIdentity attributes
                    exact .success rfl rfl
                      (.connectQp remoteQpNum remoteIdentity attributes mask qp remote method
                        decoded (mem_qps valid resolved) checked unbound ready indexed found
                        accepts)
                      { ObjectGraph.Same.refl _ with qps := .of_eq entries }

/-- What a request does, for every method. -/
theorem handle_outcome (valid : service.Valid) (session : OwnerSessionId)
    (request : ControlRequest) (environment : Environment) :
    Outcome service session request environment
      (handle service session request environment) := by
  unfold handle
  split
  · exact handleCreateQp_outcome valid ‹_›
  · exact handleDestroyQp_outcome valid ‹_›
  · exact handleQueryQp_outcome ‹_›
  · exact handleModifyQp_outcome valid ‹_›
  · exact handleQueryQpConnInfo_outcome ‹_›
  · exact handleConnectQp_outcome valid ‹_›
  · exact handlePdMrCq_outcome valid

/-! ## Atomicity -/

/-- The same live objects with the same fields, the same indexes, and the same answer of
every lookup. -/
structure Unchanged (before after : QpService) : Prop where
  catalog : after.catalog = before.catalog
  contexts : after.contexts.entries.Perm before.contexts.entries
  pds : after.pds.entries.Perm before.pds.entries
  mrs : after.mrs.entries.Perm before.mrs.entries
  cqs : after.cqs.entries.Perm before.cqs.entries
  qps : after.qps.entries.Perm before.qps.entries
  qpNumIndex : after.qpNumIndex = before.qpNumIndex
  resolveContext : ∀ session identity,
    after.contexts.resolve session identity = before.contexts.resolve session identity
  resolvePd : ∀ session identity,
    after.pds.resolve session identity = before.pds.resolve session identity
  resolveMr : ∀ session identity,
    after.mrs.resolve session identity = before.mrs.resolve session identity
  resolveCq : ∀ session identity,
    after.cqs.resolve session identity = before.cqs.resolve session identity
  resolveQp : ∀ session identity,
    after.qps.resolve session identity = before.qps.resolve session identity
  resolveLkey : ∀ session pd key address length,
    after.resolveLkey session pd key address length =
      before.resolveLkey session pd key address length
  resolveRkey : ∀ session pd key address length,
    after.resolveRkey session pd key address length =
      before.resolveRkey session pd key address length
  workerQpView : ∀ qpNum, after.workerQpView qpNum = before.workerQpView qpNum

/-- The answers of a registry depend on its entries only. -/
theorem resolve_of_perm {Record : Type} {type : ObjectType}
    {before after : GenerationRegistry Record type} (typed : type ≠ .invalid)
    (beforeFormed : before.WellFormed) (afterFormed : after.WellFormed)
    (same : after.entries.Perm before.entries) (session identity : Nat) :
    after.resolve session identity = before.resolve session identity := by
  apply Option.ext
  intro record
  rw [resolve_eq_some_iff afterFormed typed, resolve_eq_some_iff beforeFormed typed]
  exact same.mem_iff

theorem resolveAny_of_perm {Record : Type} {type : ObjectType}
    {before after : GenerationRegistry Record type} (typed : type ≠ .invalid)
    (beforeFormed : before.WellFormed) (afterFormed : after.WellFormed)
    (same : after.entries.Perm before.entries) (identity : Nat) :
    after.resolveAny identity = before.resolveAny identity := by
  apply Option.ext
  intro record
  rw [resolveAny_eq_some_iff afterFormed typed, resolveAny_eq_some_iff beforeFormed typed]
  simp only [same.mem_iff]

theorem Refused.unchanged {after : QpService} (refused : Refused service after)
    (catalog : after.catalog = service.catalog) (valid : service.Valid)
    (validAfter : after.Valid) : Unchanged service after := by
  have resolvePd : ∀ session identity,
      after.pds.resolve session identity = service.pds.resolve session identity :=
    resolve_of_perm (by decide) valid.pds validAfter.pds refused.same.pds
  have resolveMr : ∀ session identity,
      after.mrs.resolve session identity = service.mrs.resolve session identity :=
    resolve_of_perm (by decide) valid.mrs validAfter.mrs refused.same.mrs
  have resolveCq : ∀ session identity,
      after.cqs.resolve session identity = service.cqs.resolve session identity :=
    resolve_of_perm (by decide) valid.cqs validAfter.cqs refused.same.cqs
  have resolveAny : ∀ identity,
      after.qps.resolveAny identity = service.qps.resolveAny identity :=
    resolveAny_of_perm (by decide) valid.qps validAfter.qps refused.same.qps
  have qpNumIndex : after.qpNumIndex = service.qpNumIndex := refused.same.qpNumIndex
  have resolveKey : ∀ session pd key address length remote,
      after.resolveKey session pd key address length remote =
        service.resolveKey session pd key address length remote := by
    intro session pd key address length remote
    simp only [QpService.resolveKey, resolvePd, resolveMr]
  refine
    { catalog
      contexts := refused.same.contexts
      pds := refused.same.pds
      mrs := refused.same.mrs
      cqs := refused.same.cqs
      qps := refused.same.qps
      qpNumIndex
      resolveContext :=
        resolve_of_perm (by decide) valid.contexts validAfter.contexts refused.same.contexts
      resolvePd
      resolveMr
      resolveCq
      resolveQp := resolve_of_perm (by decide) valid.qps validAfter.qps refused.same.qps
      resolveLkey := fun _ _ _ _ _ => resolveKey _ _ _ _ _ _
      resolveRkey := fun _ _ _ _ _ => resolveKey _ _ _ _ _ _
      workerQpView := fun qpNum => ?_ }
  simp only [QpService.workerQpView, qpNumIndex, resolveAny, QpService.resolveCq, resolveCq]

/-- A request that fails changes nothing but the counters for keys and numbers; one that
succeeds changes its target and what counts or indexes it. -/
theorem requests_atomic (reachable : service.Reachable) (session : OwnerSessionId)
    (request : ControlRequest) (environment : Environment) :
    let result := handle service session request environment
    (result.1.status ≠ none → Unchanged service result.2) ∧
      (result.1.status = none →
        result.2.catalog = service.catalog ∧
          ∃ graph, Applied service session request environment result.1 graph ∧
            result.2.graph.Same graph) := by
  intro result
  have valid := reachable.valid
  have outcome := handle_outcome valid session request environment
  refine ⟨fun failed => ?_, fun ok => ⟨outcome.catalog, outcome.applied ok⟩⟩
  exact (outcome.refused failed).unchanged outcome.catalog valid (handle_valid valid)

end QpService

/-! ## A connected pair of queue pairs

The daemon after one session has created a context, a protection domain, a completion
queue, a memory region and two queue pairs and has connected them with each other.
-/

namespace Loopback

open Queue

def host : Environment where
  rings := { pageSize := .ok 4096, mapMemory := fun _ _ => none, duplicateFd := fun _ => none }
  openMemory := fun memory => .ok ⟨memory.gpuUuid, 8192⟩
  closeMemory := fun _ => none
  tableInsertions := 8

def contextIdentity : Nat := packIdentity ObjectType.context.code 1 0

def pdIdentity : Nat := packIdentity ObjectType.pd.code 1 0

def cqIdentity : Nat := packIdentity ObjectType.cq.code 1 0

def qpIdentity (slot : Nat) : Nat := packIdentity ObjectType.qp.code 1 slot

def registerMr : ControlRequest :=
  { method := 6
    objectIdentity := pdIdentity
    length := 64
    access := 3
    payload :=
      encode 2 mrPayloadVersion ++ encode 2 0 ++ List.replicate 16 1 ++ encode 8 4096 ++
        encode 8 64 ++ encode 8 0 ++ encode 4 1 ++ [1] }

def createQp : ControlRequest :=
  { method := 10
    objectIdentity := pdIdentity
    payload :=
      encode 2 qpPayloadVersion ++ encode 2 0 ++ encode 8 cqIdentity ++ encode 8 cqIdentity ++
        encode 4 4 ++ encode 4 4 ++ encode 4 4 ++ encode 4 4 ++ encode 4 qpTypeRc ++
        encode 4 0 }

def readyQp (slot : Nat) : ControlRequest :=
  { method := 13
    objectIdentity := qpIdentity slot
    payload :=
      encode 2 qpPayloadVersion ++ encode 2 0 ++
        encode 4 (qpMaskState ||| qpMaskAccess).toNat ++ encode 4 qpStateInit ++ encode 4 0 ++
        encode 4 qpAccessRemoteWrite ++ encode 4 0 }

def connectQp (slot peer : Nat) : ControlRequest :=
  { method := 15
    objectIdentity := qpIdentity slot
    payload :=
      encode 2 qpPayloadVersion ++ encode 2 0 ++ encode 4 qpConnectMask.toNat ++
        encode 4 peer ++ encode 4 0 }

/-- Two connected queue pairs with one memory region of 64 bytes: client address 4096,
daemon address 8192, local key 1 and remote key 2. -/
def service : QpService :=
  Execution.run QpService.step (QpService.create [⟨1, []⟩])
    (([{ method := 2, objectIdentity := 1 }, { method := 4, objectIdentity := contextIdentity },
        { method := 8, objectIdentity := contextIdentity, length := 4 }, registerMr, createQp,
        createQp, readyQp 0, readyQp 1, connectQp 0 2, connectQp 1 1] :
      List ControlRequest).map fun request => .request 1 request host)

theorem service_reachable : service.Reachable :=
  ⟨_, _, rfl⟩

end Loopback

namespace QpService

/-- A second registration whose last insertion into the key indexes fails. -/
theorem requests_atomic_rollback :
    let environment := { Loopback.host with tableInsertions := 2 }
    let result := handle Loopback.service 1 Loopback.registerMr environment
    result.1.status = some .enomem ∧ Unchanged Loopback.service result.2 := by
  intro environment result
  have failed : result.1.status = some .enomem := by decide +kernel
  have atomic := (requests_atomic Loopback.service_reachable 1
    Loopback.registerMr environment).1
  exact ⟨failed, atomic (by rw [failed]; exact nofun)⟩

end QpService

end Ugdr.Control
