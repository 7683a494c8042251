import Ugdr.Foundation.Execution
import Ugdr.Control.ObjectGraph

/-! # The service keeps its object graph consistent

Every request and every disconnect takes a consistent service to a consistent
service, whatever the request contains and whatever the environment answers.
-/

namespace Ugdr.Control

open GenerationRegistry ObjectGraph

namespace GenerationRegistry

universe u

variable {Record : Type u} {type : ObjectType} {registry updated : GenerationRegistry Record type}

theorem insert_some (wellFormed : registry.WellFormed) (valid : type ≠ .invalid)
    {owner : OwnerSessionId} {record : Record} {identity : Nat}
    (inserted : registry.insert owner record = (some identity, updated)) :
    updated.WellFormed ∧
      (⟨identity, owner, record⟩ :: registry.entries).Perm updated.entries ∧
      identity ∉ registry.entries.map Entry.identity := by
  have kept := insert_wellFormed wellFormed valid owner record
  have permuted := insert_entries wellFormed valid (congrArg Prod.fst inserted)
  rw [inserted] at kept permuted
  have nodup := entries_identity_nodup kept
  rw [(permuted.map Entry.identity).nodup_iff, List.map_cons, List.nodup_cons] at nodup
  exact ⟨kept, permuted.symm, nodup.1⟩

theorem insert_eq_none (wellFormed : registry.WellFormed) (valid : type ≠ .invalid)
    {owner : OwnerSessionId} {record : Record}
    (failed : registry.insert owner record = (none, updated)) : updated = registry := by
  have unchanged := (insert_none wellFormed valid (congrArg Prod.fst failed)).1
  rwa [failed] at unchanged

theorem erase_resolved (wellFormed : registry.WellFormed) (valid : type ≠ .invalid)
    {owner : OwnerSessionId} {identity : Nat} {record : Record}
    (resolved : registry.resolve owner identity = some record) :
    ∃ remaining, registry.erase owner identity = (none, remaining) ∧ remaining.WellFormed ∧
      registry.entries.Perm (⟨identity, owner, record⟩ :: remaining.entries) ∧
      identity ∉ remaining.entries.map Entry.identity := by
  obtain ⟨succeeded, kept, permuted⟩ := erase_of_resolve wellFormed valid resolved
  have nodup := entries_identity_nodup wellFormed
  rw [(permuted.map Entry.identity).nodup_iff, List.map_cons, List.nodup_cons] at nodup
  exact ⟨_, Prod.ext succeeded rfl, kept, permuted, nodup.1⟩

theorem modify_wellFormed (wellFormed : registry.WellFormed) (valid : type ≠ .invalid)
    (owner : OwnerSessionId) (identity : Nat) (update : Record → Record) :
    (registry.modify owner identity update).WellFormed := by
  cases resolved : registry.resolve owner identity with
  | none => rwa [modify_of_resolve_none wellFormed valid resolved]
  | some record => exact (modify_entries wellFormed valid resolved update).1

end GenerationRegistry

namespace QpService

def graph (service : QpService) : ObjectGraph where
  contexts := service.contexts.entries
  pds := service.pds.entries
  mrs := service.mrs.entries
  cqs := service.cqs.entries
  qps := service.qps.entries
  nextKey := service.nextKey
  qpNumIndex := service.qpNumIndex
  nextQpNum := service.nextQpNum

structure Valid (service : QpService) : Prop where
  contexts : service.contexts.WellFormed
  pds : service.pds.WellFormed
  mrs : service.mrs.WellFormed
  cqs : service.cqs.WellFormed
  qps : service.qps.WellFormed
  nextQpNum : service.nextQpNum < 2 ^ 32
  consistent : service.graph.Consistent

variable {service : QpService} {session : OwnerSessionId} {request : ControlRequest}
  {environment : Environment}

theorem Valid.distinct (valid : service.Valid) : service.graph.Distinct where
  contexts := entries_identity_nodup valid.contexts
  pds := entries_identity_nodup valid.pds
  mrs := entries_identity_nodup valid.mrs
  cqs := entries_identity_nodup valid.cqs
  qps := entries_identity_nodup valid.qps

theorem create_valid (catalog : List DeviceDescriptor) : (create catalog).Valid where
  contexts := create_wellFormed 1
  pds := create_wellFormed 1
  mrs := create_wellFormed 1
  cqs := create_wellFormed 1
  qps := create_wellFormed 1
  nextQpNum := show 1 < 2 ^ 32 by decide
  consistent := empty_consistent 1 1

/-! ## Entries of resolved objects -/

theorem mem_contexts (valid : service.Valid) {identity : Nat} {context : ContextRecord}
    (resolved : service.resolveContext session identity = some context) :
    ⟨identity, session, context⟩ ∈ service.graph.contexts :=
  (resolve_eq_some_iff valid.contexts (by decide)).mp resolved

theorem mem_pds (valid : service.Valid) {identity : Nat} {pd : PdRecord}
    (resolved : service.pds.resolve session identity = some pd) :
    ⟨identity, session, pd⟩ ∈ service.graph.pds :=
  (resolve_eq_some_iff valid.pds (by decide)).mp resolved

theorem mem_mrs (valid : service.Valid) {identity : Nat} {mr : MrRecord}
    (resolved : service.mrs.resolve session identity = some mr) :
    ⟨identity, session, mr⟩ ∈ service.graph.mrs :=
  (resolve_eq_some_iff valid.mrs (by decide)).mp resolved

theorem mem_cqs (valid : service.Valid) {identity : Nat} {cq : CqRecord}
    (resolved : service.resolveCq session identity = some cq) :
    ⟨identity, session, cq⟩ ∈ service.graph.cqs :=
  (resolve_eq_some_iff valid.cqs (by decide)).mp resolved

theorem mem_qps (valid : service.Valid) {identity : Nat} {qp : QpRecord}
    (resolved : service.qps.resolve session identity = some qp) :
    ⟨identity, session, qp⟩ ∈ service.graph.qps :=
  (resolve_eq_some_iff valid.qps (by decide)).mp resolved

theorem adjustChildCount_entries (valid : service.Valid) {identity : Nat}
    {context : ContextRecord}
    (resolved : service.resolveContext session identity = some context)
    (change : Nat → Nat) :
    (service.adjustChildCount session identity change).contexts.entries =
      service.contexts.entries.map (adjustChildren identity change) :=
  modify_entries_map valid.contexts (by decide) resolved _

/-! ## Devices and contexts -/

theorem handleListDevices_valid (valid : service.Valid) :
    (handleListDevices service session request environment).2.Valid := by
  unfold handleListDevices
  split
  · exact valid
  · split <;> exact valid

theorem handleCreateContext_valid (valid : service.Valid) :
    (handleCreateContext service session request environment).2.Valid := by
  unfold handleCreateContext
  split
  · exact valid
  · split
    · rename_i contexts failed
      rw [insert_eq_none valid.contexts (by decide) failed]
      exact valid
    · rename_i identity contexts inserted
      obtain ⟨kept, permuted, fresh⟩ := insert_some valid.contexts (by decide) inserted
      exact { valid with
        contexts := kept
        consistent := (valid.consistent.addContext fresh rfl).perm permuted
          (.refl _) (.refl _) (.refl _) (.refl _) }

theorem handleDestroyContext_valid (valid : service.Valid) :
    (handleDestroyContext service session request environment).2.Valid := by
  unfold handleDestroyContext
  split
  · exact valid
  · rename_i context resolved
    split
    · exact valid
    · rename_i idle
      obtain ⟨remaining, erased, kept, permuted, -⟩ :=
        erase_resolved valid.contexts (by decide) resolved
      rw [erased]
      have reordered := valid.consistent.perm permuted (.refl _) (.refl _) (.refl _) (.refl _)
      exact { valid with
        contexts := kept
        consistent := reordered.removeContext (by simpa using idle) }

theorem handleDeviceContext_valid (valid : service.Valid) :
    (handleDeviceContext service session request environment).2.Valid := by
  unfold handleDeviceContext
  split
  · exact valid
  · split
    · exact handleListDevices_valid valid
    · exact handleCreateContext_valid valid
    · exact handleDestroyContext_valid valid
    · exact valid

/-! ## Protection domains and completion queues -/

theorem handleCreatePd_valid (valid : service.Valid) :
    (handleCreatePd service session request environment).2.Valid := by
  unfold handleCreatePd
  split
  · exact valid
  · split
    · exact valid
    · rename_i context resolved
      split
      · rename_i pds failed
        rw [insert_eq_none valid.pds (by decide) failed]
        exact valid
      · rename_i identity pds inserted
        obtain ⟨kept, permuted, fresh⟩ := insert_some valid.pds (by decide) inserted
        have grown := valid.consistent.addPd
          ⟨identity, session, { contextIdentity := request.objectIdentity }⟩
          (mem_contexts valid resolved) rfl rfl fresh rfl rfl rfl rfl
        refine { valid with
          contexts := modify_wellFormed valid.contexts (by decide) ..
          pds := kept
          consistent := ?_ }
        have renamed := adjustChildCount_entries valid resolved (· + 1)
        exact grown.perm (.of_eq renamed.symm) permuted (.refl _) (.refl _) (.refl _)

theorem handleDestroyPd_valid (valid : service.Valid) :
    (handleDestroyPd service session request environment).2.Valid := by
  unfold handleDestroyPd
  split
  · exact valid
  · split
    · exact valid
    · rename_i pd resolved
      split
      · exact valid
      · rename_i idle
        rw [not_or, not_not, not_not] at idle
        split
        · exact valid
        · rename_i context parent
          split
          · exact valid
          · obtain ⟨remaining, erased, kept, permuted, -⟩ :=
              erase_resolved valid.pds (by decide) resolved
            rw [erased]
            have reordered :=
              valid.consistent.perm (.refl _) permuted (.refl _) (.refl _) (.refl _)
            refine { valid with
              contexts := modify_wellFormed valid.contexts (by decide) ..
              pds := kept
              consistent := ?_ }
            have renamed := adjustChildCount_entries valid parent (· - 1)
            exact (reordered.removePd idle.1 idle.2).perm (.of_eq renamed.symm) (.refl _)
              (.refl _) (.refl _) (.refl _)

theorem handleCreateCq_valid (valid : service.Valid) :
    (handleCreateCq service session request environment).2.Valid := by
  unfold handleCreateCq
  split
  · exact valid
  · split
    · exact valid
    · rename_i context resolved
      split
      · exact valid
      · rename_i completions _
        split
        · exact valid
        · split
          · exact valid
          · split
            · rename_i cqs failed
              rw [insert_eq_none valid.cqs (by decide) failed]
              exact valid
            · rename_i identity cqs inserted
              obtain ⟨kept, permuted, fresh⟩ := insert_some valid.cqs (by decide) inserted
              have grown := valid.consistent.addCq ⟨identity, session,
                  ⟨request.objectIdentity, request.length, 0, completions⟩⟩
                (mem_contexts valid resolved) rfl rfl fresh rfl
              refine { valid with
                contexts := modify_wellFormed valid.contexts (by decide) ..
                cqs := kept
                consistent := ?_ }
              have renamed := adjustChildCount_entries valid resolved (· + 1)
              exact grown.perm (.of_eq renamed.symm) (.refl _) (.refl _) permuted (.refl _)

theorem handleDestroyCq_valid (valid : service.Valid) :
    (handleDestroyCq service session request environment).2.Valid := by
  unfold handleDestroyCq
  split
  · exact valid
  · split
    · exact valid
    · rename_i cq resolved
      split
      · exact valid
      · rename_i idle
        rw [not_not] at idle
        split
        · exact valid
        · rename_i context parent
          split
          · exact valid
          · obtain ⟨remaining, erased, kept, permuted, -⟩ :=
              erase_resolved valid.cqs (by decide) resolved
            rw [erased]
            have reordered :=
              valid.consistent.perm (.refl _) (.refl _) (.refl _) permuted (.refl _)
            refine { valid with
              contexts := modify_wellFormed valid.contexts (by decide) ..
              cqs := kept
              consistent := ?_ }
            have renamed := adjustChildCount_entries valid parent (· - 1)
            exact (reordered.removeCq idle).perm (.of_eq renamed.symm) (.refl _)
              (.refl _) (.refl _) (.refl _)

/-! ## Memory regions -/

/-- A store of a whole record is a change of that record. -/
theorem modify_const_entries {Record : Type} {type : ObjectType}
    {registry : GenerationRegistry Record type} (wellFormed : registry.WellFormed)
    (typed : type ≠ .invalid) {identity : Nat} {record : Record}
    (resolved : registry.resolve session identity = some record)
    (update : Record → Record) :
    (registry.modify session identity fun _ => update record).entries =
      registry.entries.map (Entry.adjust identity update) := by
  rw [modify_entries_map wellFormed typed resolved]
  refine List.map_congr_left fun entry member => ?_
  unfold Entry.adjust
  split
  · rename_i here
    have same := entry_unique wellFormed member
      ((resolve_eq_some_iff wellFormed typed).mp resolved) here
    rw [same]
  · rfl

theorem adjust_id {Record : Type} {identity : Nat} (entry : Entry Record) :
    entry.adjust identity id = id entry := by
  unfold Entry.adjust
  split <;> rfl

/-- Fresh keys are in no index of the PD. -/
theorem fresh_keys (valid : service.Valid) {pdIdentity : Nat} {pd : PdRecord}
    (resolved : service.pds.resolve session pdIdentity = some pd) {key : Nat}
    (fresh : service.nextKey ≤ key) :
    pd.localKeyIndex key = none ∧ pd.remoteKeyIndex key = none := by
  have member := mem_pds valid resolved
  constructor
  · by_contra taken
    obtain ⟨value, found⟩ := Option.ne_none_iff_exists'.mp taken
    obtain ⟨mr, mrMember, same, -⟩ :=
      (valid.consistent.localKeyIndex _ member (key, value)).mp found
    have below := (valid.consistent.keysBelow mr mrMember).1
    simp only [graph] at same below
    omega
  · by_contra taken
    obtain ⟨value, found⟩ := Option.ne_none_iff_exists'.mp taken
    obtain ⟨mr, mrMember, same, -⟩ :=
      (valid.consistent.remoteKeyIndex _ member (key, value)).mp found
    have below := (valid.consistent.keysBelow mr mrMember).2
    simp only [graph] at same below
    omega

/-- Either all three insertions take place, or undoing them gives the old PD. -/
theorem relateMr_cases {tableInsertions identity lkey rkey : Nat} {pd : PdRecord}
    (newMr : identity ∉ pd.mrIdentities) (newLocal : pd.localKeyIndex lkey = none)
    (newRemote : pd.remoteKeyIndex rkey = none) :
    relateMr tableInsertions pd identity lkey rkey =
        (true, relatedPd identity lkey rkey pd) ∨
      (relateMr tableInsertions pd identity lkey rkey).1 = false ∧
        unrelateMr (relateMr tableInsertions pd identity lkey rkey).2 identity lkey rkey =
          pd := by
  have noMr : pd.mrIdentities.erase identity = pd.mrIdentities :=
    Finset.erase_eq_of_notMem newMr
  have noLocal : Function.update pd.localKeyIndex lkey none = pd.localKeyIndex := by
    rw [← newLocal, Function.update_eq_self]
  have noRemote : Function.update pd.remoteKeyIndex rkey none = pd.remoteKeyIndex := by
    rw [← newRemote, Function.update_eq_self]
  have insertedMr : (insert identity pd.mrIdentities).erase identity = pd.mrIdentities :=
    Finset.erase_insert newMr
  unfold relateMr
  split
  · exact .inr ⟨rfl, by simp [unrelateMr, noMr, noLocal, noRemote]⟩
  · split
    · exact .inr ⟨rfl, by simp [unrelateMr, insertedMr, noLocal, noRemote]⟩
    · simp only [emplace, newLocal, newRemote]
      split
      · exact .inr ⟨rfl, by simp [unrelateMr, insertedMr, noLocal, noRemote]⟩
      · exact .inl (by simp [newMr, relatedPd])

/-- Using up keys keeps a service valid. -/
theorem Valid.withNextKey (valid : service.Valid) {nextKey : Nat}
    (later : service.nextKey ≤ nextKey) : Valid { service with nextKey } where
  contexts := valid.contexts
  pds := valid.pds
  mrs := valid.mrs
  cqs := valid.cqs
  qps := valid.qps
  nextQpNum := valid.nextQpNum
  consistent :=
    { valid.consistent with
      keysBelow := fun mr member => by
        have below := valid.consistent.keysBelow mr member
        simp only [graph] at below ⊢
        omega }

theorem registerMapped_valid (valid : service.Valid) {pd : PdRecord}
    (resolved : service.pds.resolve session request.objectIdentity = some pd)
    (memory : ExportedCudaMemory) (mapping : CudaIpcMapping) :
    (registerMapped { service with nextKey := service.nextKey + 2 } session request
      environment pd memory mapping service.nextKey (service.nextKey + 1)).2.Valid := by
  have numbered : Valid { service with nextKey := service.nextKey + 2 } :=
    valid.withNextKey (Nat.le_add_right _ 2)
  unfold registerMapped
  split
  · exact numbered
  · split
    · rename_i mrs failed
      rw [insert_eq_none valid.mrs (by decide) failed]
      exact numbered
    · rename_i identity mrs inserted
      obtain ⟨kept, permuted, fresh⟩ := insert_some valid.mrs (by decide) inserted
      have newMr : identity ∉ pd.mrIdentities := by
        intro known
        obtain ⟨mr, member, same, -⟩ :=
          (valid.consistent.mrIdentities _ (mem_pds valid resolved) identity).mp known
        exact fresh (List.mem_map.mpr ⟨mr, member, same⟩)
      have newLocal := (fresh_keys valid resolved (Nat.le_refl _)).1
      have newRemote := (fresh_keys valid resolved (Nat.le_add_right _ 1)).2
      rcases relateMr_cases newMr newLocal newRemote with added | ⟨failed, restored⟩
      · rw [added]
        have grown := valid.consistent.addMr
          ⟨identity, session, newMrRecord request pd memory mapping service.nextKey
            (service.nextKey + 1)⟩ (mem_pds valid resolved) rfl rfl rfl rfl (Nat.le_refl _)
          (Nat.le_add_right _ 1) (show service.nextKey < service.nextKey + 2 by omega)
          (Nat.lt_succ_self _)
        refine { numbered with
          pds := modify_wellFormed valid.pds (by decide) ..
          mrs := kept
          consistent := ?_ }
        have renamed := modify_const_entries valid.pds (by decide) resolved
          (relatedPd identity service.nextKey (service.nextKey + 1))
        exact grown.perm (.refl _) (.of_eq renamed.symm) permuted (.refl _) (.refl _)
      · obtain ⟨remaining, erased, remainingKept, removed, -⟩ :=
          erase_resolved kept (by decide) ((resolve_eq_some_iff kept (by decide)).mpr
            (permuted.subset (List.mem_cons_self ..)))
        have sameMrs : service.mrs.entries.Perm remaining.entries :=
          (permuted.trans removed).cons_inv
        have samePds := modify_const_entries valid.pds (by decide) resolved id
        rw [List.map_congr_left (fun entry _ => adjust_id entry), List.map_id] at samePds
        generalize relateMr environment.tableInsertions pd identity service.nextKey
          (service.nextKey + 1) = outcome at failed restored
        obtain ⟨flag, related⟩ := outcome
        simp only at failed restored
        simp only [failed, restored, erased]
        exact { numbered with
          pds := modify_wellFormed valid.pds (by decide) ..
          mrs := remainingKept
          consistent := numbered.consistent.perm (.refl _) (.of_eq samePds.symm) sameMrs
            (.refl _) (.refl _) }

theorem handleRegisterMr_valid (valid : service.Valid) :
    (handleRegisterMr service session request environment).2.Valid := by
  unfold handleRegisterMr
  split
  · exact valid
  · split
    · exact valid
    · rename_i pd resolved
      split
      · exact valid
      · rename_i memory _
        split
        · exact valid
        · rename_i mapping _
          split
          · exact valid
          · split
            · exact valid
            · rename_i lkey rkey nextKey allocated
              unfold allocateKeys at allocated
              split at allocated
              · cases allocated
              · simp only [Option.some.injEq, Prod.mk.injEq] at allocated
                obtain ⟨⟨rfl, rfl⟩, rfl⟩ := allocated
                exact registerMapped_valid valid resolved memory mapping

theorem handleDeregisterMr_valid (valid : service.Valid) :
    (handleDeregisterMr service session request environment).2.Valid := by
  unfold handleDeregisterMr
  split
  · exact valid
  · split
    · exact valid
    · rename_i mr resolved
      split
      · exact valid
      · split
        · exact valid
        · split
          · exact valid
          · rename_i pd parent
            obtain ⟨remaining, erased, kept, permuted, alone⟩ :=
              erase_resolved valid.mrs (by decide) resolved
            rw [erased]
            have reordered :=
              valid.consistent.perm (.refl _) (.refl _) permuted (.refl _) (.refl _)
            have renamed := modify_entries_map valid.pds (by decide) parent fun pd =>
              unrelateMr pd request.objectIdentity mr.lkey mr.rkey
            exact { valid with
              pds := modify_wellFormed valid.pds (by decide) ..
              mrs := kept
              consistent := (reordered.removeMr alone).perm (.refl _) (.of_eq renamed.symm)
                (.refl _) (.refl _) (.refl _) }

theorem handlePdMrCq_valid (valid : service.Valid) :
    (handlePdMrCq service session request environment).2.Valid := by
  unfold handlePdMrCq
  split
  · exact handleCreatePd_valid valid
  · exact handleDestroyPd_valid valid
  · exact handleRegisterMr_valid valid
  · exact handleDeregisterMr_valid valid
  · exact handleCreateCq_valid valid
  · exact handleDestroyCq_valid valid
  · exact handleDeviceContext_valid valid

/-! ## Queue pairs -/

/-- The CQ registry after both CQs of a QP have been counted. -/
def countCqs (cqs : GenerationRegistry CqRecord .cq) (session send receive : Nat)
    (change : Nat → Nat) : GenerationRegistry CqRecord .cq :=
  let count := fun cq : CqRecord => { cq with qpReferences := change cq.qpReferences }
  let counted := cqs.modify session send count
  if receive ≠ send then counted.modify session receive count else counted

theorem countCqs_wellFormed {cqs : GenerationRegistry CqRecord .cq}
    (wellFormed : cqs.WellFormed) (send receive : Nat) (change : Nat → Nat) :
    (countCqs cqs session send receive change).WellFormed := by
  have counted := modify_wellFormed wellFormed (by decide) session send
    fun cq => { cq with qpReferences := change cq.qpReferences }
  unfold countCqs
  dsimp only
  split
  · exact modify_wellFormed counted (by decide) ..
  · exact counted

theorem countCqs_entries {cqs : GenerationRegistry CqRecord .cq}
    (wellFormed : cqs.WellFormed) {send receive : Nat} {sendCq receiveCq : CqRecord}
    (sendResolved : cqs.resolve session send = some sendCq)
    (receiveResolved : cqs.resolve session receive = some receiveCq)
    (change : Nat → Nat) :
    (countCqs cqs session send receive change).entries =
      cqs.entries.map (adjustCqs send receive change) := by
  have first := modify_entries_map wellFormed (by decide) sendResolved
    fun cq => { cq with qpReferences := change cq.qpReferences }
  have counted := modify_wellFormed wellFormed (by decide) session send
    fun cq => { cq with qpReferences := change cq.qpReferences }
  unfold countCqs
  dsimp only
  split
  · rename_i different
    have still : ∃ cq, (cqs.modify session send fun cq =>
        { cq with qpReferences := change cq.qpReferences }).resolve session receive =
          some cq := by
      refine ⟨receiveCq, (resolve_eq_some_iff counted (by decide)).mpr ?_⟩
      rw [first]
      refine List.mem_map.mpr ⟨⟨receive, session, receiveCq⟩,
        (resolve_eq_some_iff wellFormed (by decide)).mp receiveResolved, ?_⟩
      exact if_neg different
    obtain ⟨cq, resolved⟩ := still
    rw [modify_entries_map counted (by decide) resolved, first, List.map_map]
    refine List.map_congr_left fun entry _ => ?_
    simp only [Function.comp_apply, Entry.adjust, adjustCqs]
    grind
  · rename_i same
    rw [not_not] at same
    rw [first]
    refine List.map_congr_left fun entry _ => ?_
    simp only [Entry.adjust, adjustCqs]
    grind

theorem adjustQpCount_entries {pds : GenerationRegistry PdRecord .pd}
    (wellFormed : pds.WellFormed) {identity : Nat} {pd : PdRecord}
    (resolved : pds.resolve session identity = some pd) (change : Nat → Nat) :
    (pds.modify session identity fun pd =>
      { pd with qpCount := change pd.qpCount }).entries =
      pds.entries.map (adjustQps identity change) :=
  modify_entries_map wellFormed (by decide) resolved _

/-- The next QP number is not in use, and neither is any later one. -/
theorem fresh_qpNum (valid : service.Valid) (available : service.nextQpNum ≠ 0) :
    (∀ qp ∈ service.graph.qps, qp.record.qpNum < service.nextQpNum) ∧
      service.qpNumIndex service.nextQpNum = none := by
  have below : ∀ qp ∈ service.graph.qps, qp.record.qpNum < service.nextQpNum :=
    valid.consistent.qpNumsBelow.resolve_left available
  refine ⟨below, ?_⟩
  by_contra taken
  obtain ⟨identity, found⟩ := Option.ne_none_iff_exists'.mp taken
  obtain ⟨qp, member, same, -⟩ := (valid.consistent.qpNumIndex _
    (List.mem_singleton_self _) (service.nextQpNum, identity)).mp found
  exact absurd same (Nat.ne_of_lt (below qp member))

/-- Using up a QP number keeps a service valid. -/
theorem Valid.withNextQpNum (valid : service.Valid) (available : service.nextQpNum ≠ 0) :
    Valid { service with nextQpNum := (service.nextQpNum + 1) % 2 ^ 32 } := by
  have below := (fresh_qpNum valid available).1
  have bound := valid.nextQpNum
  refine { valid with
    nextQpNum := Nat.mod_lt _ (by decide)
    consistent := { valid.consistent with qpNumsBelow := ?_ } }
  by_cases last : service.nextQpNum + 1 = 2 ^ 32
  · exact .inl (by simp [graph, last])
  · refine .inr fun qp member => ?_
    have less := below qp member
    simp only [graph]
    rw [Nat.mod_eq_of_lt (by omega)]
    omega

theorem publishQp_valid (valid : service.Valid) {record : QpRecord} {pd : PdRecord}
    {sendCq recvCq : CqRecord} {payload : Wire.Bytes}
    (pdResolved : service.pds.resolve session request.objectIdentity = some pd)
    (sendResolved : service.cqs.resolve session record.sendCqIdentity = some sendCq)
    (recvResolved : service.cqs.resolve session record.recvCqIdentity = some recvCq)
    (named : record.pdIdentity = request.objectIdentity)
    (owner : record.ownerSession = session)
    (pdContext : pd.contextIdentity = record.contextIdentity)
    (sendContext : sendCq.contextIdentity = record.contextIdentity)
    (recvContext : recvCq.contextIdentity = record.contextIdentity) :
    (publishQp service session request environment record payload).2.Valid := by
  unfold publishQp
  split
  · exact valid
  · rename_i available
    have numbered := valid.withNextQpNum available
    obtain ⟨below, free⟩ := fresh_qpNum valid available
    dsimp only
    split
    · rename_i qps failed
      rw [insert_eq_none valid.qps (by decide) failed]
      exact numbered
    · rename_i identity qps inserted
      obtain ⟨kept, permuted, fresh⟩ := insert_some valid.qps (by decide) inserted
      -- Undoing the insertion leaves a service that only used up a number.
      have undone : Valid
          { service with
            nextQpNum := (service.nextQpNum + 1) % 2 ^ 32
            qps := (qps.erase session identity).2 } := by
        obtain ⟨remaining, erased, remainingKept, removed, -⟩ :=
          erase_resolved kept (by decide) ((resolve_eq_some_iff kept (by decide)).mpr
            (permuted.subset (List.mem_cons_self ..)))
        rw [erased]
        exact { numbered with
          qps := remainingKept
          consistent := numbered.consistent.perm (.refl _) (.refl _) (.refl _) (.refl _)
            (permuted.trans removed).cons_inv }
      simp only [emplace, free]
      split
      · exact undone
      · have below' : (service.nextQpNum + 1) % 2 ^ 32 = 0 ∨
            service.nextQpNum < (service.nextQpNum + 1) % 2 ^ 32 ∧
              ∀ other ∈ service.graph.qps,
                other.record.qpNum < (service.nextQpNum + 1) % 2 ^ 32 := by
          have bound := valid.nextQpNum
          by_cases last : service.nextQpNum + 1 = 2 ^ 32
          · exact .inl (by simp [last])
          · rw [Nat.mod_eq_of_lt (by omega)]
            exact .inr ⟨Nat.lt_succ_self _, fun other member =>
              Nat.lt_succ_of_lt (below other member)⟩
        have grown := valid.consistent.addQp
          ⟨identity, session, { record with qpNum := service.nextQpNum }⟩
          (mem_pds valid pdResolved) (mem_cqs valid sendResolved) (mem_cqs valid recvResolved)
          ⟨named.symm, rfl, pdContext⟩ ⟨rfl, rfl, sendContext⟩ ⟨rfl, rfl, recvContext⟩ owner
          free below'
        have pds := adjustQpCount_entries valid.pds pdResolved (· + 1)
        rw [show adjustQps request.objectIdentity = adjustQps record.pdIdentity by
          rw [named]] at pds
        have cqs := countCqs_entries valid.cqs sendResolved recvResolved (· + 1)
        rw [if_pos trivial]
        have counted : Valid
            { service with
              pds := service.pds.modify session request.objectIdentity fun pd =>
                { pd with qpCount := pd.qpCount + 1 }
              cqs := countCqs service.cqs session record.sendCqIdentity
                record.recvCqIdentity (· + 1)
              qps := qps
              qpNumIndex := Function.update service.qpNumIndex service.nextQpNum
                (some identity)
              nextQpNum := (service.nextQpNum + 1) % 2 ^ 32 } := by
          refine { numbered with
            pds := modify_wellFormed valid.pds (by decide) ..
            cqs := countCqs_wellFormed valid.cqs ..
            qps := kept
            consistent := ?_ }
          exact grown.perm (.refl _) (.of_eq pds.symm) (.refl _) (.of_eq cqs.symm) permuted
        unfold countCqs at counted
        split
        · rename_i different
          rw [if_pos different] at counted
          exact counted
        · rename_i same
          rw [if_neg same] at counted
          exact counted

theorem handleCreateQp_valid (valid : service.Valid) :
    (handleCreateQp service session request environment).2.Valid := by
  unfold handleCreateQp
  split
  · exact valid
  · split
    · exact valid
    · rename_i attributes _
      split
      · exact valid
      · split
        · rename_i pd sendCq recvCq pdResolved sendResolved recvResolved
          split
          · exact valid
          · rename_i sameContext
            rw [not_or, not_not, not_not] at sameContext
            split
            · exact valid
            · exact publishQp_valid valid pdResolved sendResolved recvResolved rfl rfl rfl
                sameContext.1.symm sameContext.2.symm
        · exact valid

theorem handleDestroyQp_valid (valid : service.Valid) :
    (handleDestroyQp service session request environment).2.Valid := by
  unfold handleDestroyQp
  split
  · exact valid
  · split
    · exact valid
    · rename_i qp resolved
      split
      · rename_i pd sendCq recvCq pdResolved sendResolved recvResolved
        split
        · exact valid
        · obtain ⟨remaining, erased, kept, permuted, alone⟩ :=
            erase_resolved valid.qps (by decide) resolved
          have reordered :=
            valid.consistent.perm (.refl _) (.refl _) (.refl _) (.refl _) permuted
          have pds := adjustQpCount_entries valid.pds pdResolved (· - 1)
          have cqs := countCqs_entries valid.cqs sendResolved recvResolved (· - 1)
          have counted : Valid
              { service with
                pds := service.pds.modify session qp.pdIdentity fun pd =>
                  { pd with qpCount := pd.qpCount - 1 }
                cqs := countCqs service.cqs session qp.sendCqIdentity qp.recvCqIdentity
                  (· - 1)
                qps := remaining
                qpNumIndex := Function.update service.qpNumIndex qp.qpNum none } := by
            refine { valid with
              pds := modify_wellFormed valid.pds (by decide) ..
              cqs := countCqs_wellFormed valid.cqs qp.sendCqIdentity qp.recvCqIdentity (· - 1)
              qps := kept
              consistent := ?_ }
            exact (reordered.removeQp alone).perm (.refl _) (.of_eq pds.symm) (.refl _)
              (.of_eq cqs.symm) (.refl _)
          unfold countCqs at counted
          by_cases different : qp.recvCqIdentity ≠ qp.sendCqIdentity
          · simp only [if_pos different] at counted ⊢
            simp only [adjustQpCount, adjustQpReferences, erased]
            exact counted
          · simp only [if_neg different] at counted ⊢
            simp only [adjustQpCount, adjustQpReferences, erased]
            exact counted
      · exact valid

theorem handleQueryQp_valid (valid : service.Valid) :
    (handleQueryQp service session request environment).2.Valid := by
  unfold handleQueryQp
  split
  · exact valid
  · split
    · exact valid
    · split
      · exact valid
      · split <;> exact valid

theorem handleQueryQpConnInfo_valid (valid : service.Valid) :
    (handleQueryQpConnInfo service session request environment).2.Valid := by
  unfold handleQueryQpConnInfo
  split
  · exact valid
  · split <;> exact valid

theorem sameReferences_refl (qp : QpRecord) : SameReferences qp qp :=
  ⟨rfl, rfl, rfl, rfl, rfl, rfl⟩

theorem modifiedQp_sameReferences {qp updated : QpRecord} {attributes : QpAttributes}
    {mask : UInt32} (modified : modifiedQp qp attributes mask = .ok updated) :
    SameReferences updated qp := by
  unfold modifiedQp at modified
  dsimp only at modified
  split at modified
  · cases modified
  · split at modified
    · cases modified
    · split at modified
      · cases modified
      · split at modified
        · cases modified
          exact ⟨rfl, rfl, rfl, rfl, rfl, rfl⟩
        · split at modified
          · cases modified
            exact ⟨rfl, rfl, rfl, rfl, rfl, rfl⟩
          · cases modified

/-- A store into a QP that keeps its references keeps the service valid. -/
theorem modifyQp_valid (valid : service.Valid) {identity : Nat} {qp : QpRecord}
    (resolved : service.qps.resolve session identity = some qp)
    {update : QpRecord → QpRecord} (same : SameReferences (update qp) qp) :
    Valid { service with qps := service.qps.modify session identity update } := by
  have entries := modify_entries_map valid.qps (by decide) resolved update
  refine { valid with
    qps := modify_wellFormed valid.qps (by decide) ..
    consistent := (valid.consistent.modifyQp ?_).perm (.refl _) (.refl _) (.refl _) (.refl _)
      (.of_eq entries.symm) }
  intro entry member
  rw [Entry.adjust_record]
  split
  · rename_i here
    have identified := entry_unique valid.qps member (mem_qps valid resolved) here
    rw [identified]
    exact same
  · exact sameReferences_refl entry.record

theorem handleModifyQp_valid (valid : service.Valid) :
    (handleModifyQp service session request environment).2.Valid := by
  unfold handleModifyQp
  split
  · exact valid
  · split
    · exact valid
    · split
      · exact valid
      · rename_i qp resolved
        split
        · exact valid
        · rename_i updated modified
          exact modifyQp_valid valid resolved (modifiedQp_sameReferences modified)

theorem handleConnectQp_valid (valid : service.Valid) :
    (handleConnectQp service session request environment).2.Valid := by
  unfold handleConnectQp
  split
  · exact valid
  · split
    · exact valid
    · split
      · exact valid
      · rename_i qp resolved
        split
        · exact valid
        · split
          · exact valid
          · split
            · exact valid
            · split
              · exact valid
              · split
                · exact valid
                · split
                  · exact valid
                  · exact modifyQp_valid valid resolved ⟨rfl, rfl, rfl, rfl, rfl, rfl⟩

theorem handle_valid (valid : service.Valid) :
    (handle service session request environment).2.Valid := by
  unfold handle
  split
  · exact handleCreateQp_valid valid
  · exact handleDestroyQp_valid valid
  · exact handleQueryQp_valid valid
  · exact handleModifyQp_valid valid
  · exact handleQueryQpConnInfo_valid valid
  · exact handleConnectQp_valid valid
  · exact handlePdMrCq_valid valid

/-! ## Disconnects -/

theorem dropQpNumbers_eq_some {visited : List (Nat × QpRecord)} {index : Nat → Option Nat}
    {number identity : Nat} :
    dropQpNumbers index visited number = some identity ↔
      index number = some identity ∧ ∀ visit ∈ visited, visit.2.qpNum ≠ number := by
  unfold dropQpNumbers
  induction visited generalizing index with
  | nil => simp
  | cons visit visited induction =>
      rw [List.foldl_cons, induction]
      by_cases here : number = visit.2.qpNum
      · simp [here]
      · simp [Function.update_of_ne here, Ne.symm here]

theorem onDisconnect_valid (valid : service.Valid) (session : OwnerSessionId) :
    (service.onDisconnect session).Valid := by
  obtain ⟨contexts, contextEntries⟩ := eraseSession_entries valid.contexts session
  obtain ⟨pds, pdEntries⟩ := eraseSession_entries valid.pds session
  obtain ⟨mrs, mrEntries⟩ := eraseSession_entries valid.mrs session
  obtain ⟨cqs, cqEntries⟩ := eraseSession_entries valid.cqs session
  obtain ⟨qps, qpEntries⟩ := eraseSession_entries valid.qps session
  have indexed : ∀ number identity,
      dropQpNumbers service.qpNumIndex (service.qps.forEachSession session) number =
        some identity ↔ service.graph.qpNumIndex number = some identity ∧
          ∀ qp ∈ service.graph.qps, qp.owner = session → qp.record.qpNum ≠ number := by
    intro number identity
    rw [dropQpNumbers_eq_some]
    refine and_congr_right fun _ => ⟨fun others qp member owned => ?_,
      fun others visit visited => ?_⟩
    · refine others (qp.identity, qp.record) ((mem_forEachSession valid.qps (by decide)).mpr ?_)
      rw [← owned]
      exact member
    · exact others ⟨visit.1, session, visit.2⟩
        ((mem_forEachSession valid.qps (by decide)).mp visited) rfl
  have ended := valid.consistent.endSession session valid.distinct indexed
  exact
    { contexts := contexts
      pds := pds
      mrs := mrs
      cqs := cqs
      qps := qps
      nextQpNum := valid.nextQpNum
      consistent := ended.perm (.of_eq contextEntries.symm) (.of_eq pdEntries.symm)
        (.of_eq mrEntries.symm) (.of_eq cqEntries.symm) (.of_eq qpEntries.symm) }

end QpService

end Ugdr.Control
