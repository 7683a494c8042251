import Ugdr.Control.RequestEffects

/-! # Isolation of the sessions

A request or a disconnect of one session leaves the objects of every other session, their
counts and their indexes as they are, and a disconnect leaves nothing of its session behind.
-/

namespace Ugdr.Control

open GenerationRegistry

/-- The objects of one session. -/
def heldBy {Record : Type} (session : OwnerSessionId) (entries : List (Entry Record)) :
    List (Entry Record) :=
  entries.filter fun entry => entry.owner = session

/-- An object with this identity belongs to the session. -/
def Owned {Record : Type} (entries : List (Entry Record)) (identity : Nat)
    (session : OwnerSessionId) : Prop :=
  ∃ entry ∈ entries, entry.identity = identity ∧ entry.owner = session

section Entries

variable {Record : Type} {entries : List (Entry Record)} {session other : OwnerSessionId}
  {identity : Nat}

theorem mem_heldBy {entry : Entry Record} :
    entry ∈ heldBy session entries ↔ entry ∈ entries ∧ entry.owner = session := by
  rw [heldBy, List.mem_filter, decide_eq_true_iff]

theorem heldBy_cons_of_ne (different : other ≠ session) (record : Record) :
    heldBy other (⟨identity, session, record⟩ :: entries) = heldBy other entries :=
  List.filter_cons_of_neg (by simpa using different.symm)

theorem heldBy_of_removed {remaining : List (Entry Record)} {record : Record}
    (removed : entries.Perm (⟨identity, session, record⟩ :: remaining))
    (different : other ≠ session) : (heldBy other remaining).Perm (heldBy other entries) := by
  have kept := removed.filter fun entry => entry.owner = other
  rw [← heldBy, ← heldBy, heldBy_cons_of_ne different] at kept
  exact kept.symm

/-- An update that leaves the objects of a session alone. -/
theorem heldBy_map {update : Entry Record → Entry Record}
    (owner : ∀ entry, (update entry).owner = entry.owner)
    (untouched : ∀ entry ∈ entries, entry.owner = other → update entry = entry) :
    heldBy other (entries.map update) = heldBy other entries := by
  induction entries with
  | nil => rfl
  | cons entry entries induction =>
      have tail := induction fun entry member =>
        untouched entry (List.mem_cons_of_mem _ member)
      rw [List.map_cons, heldBy, heldBy, List.filter_cons, List.filter_cons, owner, ← heldBy,
        ← heldBy, tail]
      by_cases here : entry.owner = other
      · rw [untouched entry List.mem_cons_self here]
      · rw [if_neg (by simpa using here), if_neg (by simpa using here)]

theorem Owned.unique (owned : Owned entries identity session)
    (distinct : (entries.map Entry.identity).Nodup) {entry : Entry Record}
    (member : entry ∈ entries) (same : entry.identity = identity) : entry.owner = session := by
  obtain ⟨found, foundMember, foundSame, foundOwner⟩ := owned
  have equal := List.inj_on_of_nodup_map distinct member foundMember
    (same.trans foundSame.symm)
  rw [equal, foundOwner]

theorem heldBy_adjust (distinct : (entries.map Entry.identity).Nodup)
    (owned : Owned entries identity session) (different : other ≠ session)
    (update : Record → Record) :
    heldBy other (entries.map (Entry.adjust identity update)) = heldBy other entries := by
  refine heldBy_map (Entry.adjust_owner identity update) fun entry member held => ?_
  rw [Entry.adjust]
  refine if_neg fun same => different ?_
  rw [← held, owned.unique distinct member same]

theorem heldBy_adjustCqs {cqs : List (Entry CqRecord)} {send receive : Nat}
    (distinct : (cqs.map Entry.identity).Nodup) (sendOwned : Owned cqs send session)
    (receiveOwned : Owned cqs receive session) (different : other ≠ session)
    (change : Nat → Nat) :
    heldBy other (cqs.map (ObjectGraph.adjustCqs send receive change)) = heldBy other cqs := by
  refine heldBy_map (ObjectGraph.adjustCqs_owner send receive change) fun cq member held => ?_
  rw [ObjectGraph.adjustCqs]
  refine if_neg fun same => different ?_
  rcases same with same | same
  · rw [← held, sendOwned.unique distinct member same.symm]
  · rw [← held, receiveOwned.unique distinct member same.symm]

theorem Owned.perm {same : List (Entry Record)} (owned : Owned entries identity session)
    (permuted : entries.Perm same) : Owned same identity session := by
  obtain ⟨entry, member, rest⟩ := owned
  exact ⟨entry, permuted.mem_iff.mp member, rest⟩

/-- An owner is not changed by updates of the records. -/
theorem Owned.of_map {update : Entry Record → Entry Record}
    (owned : Owned (entries.map update) identity session)
    (identities : ∀ entry, (update entry).identity = entry.identity)
    (owners : ∀ entry, (update entry).owner = entry.owner) : Owned entries identity session := by
  obtain ⟨_, member, same, owner⟩ := owned
  obtain ⟨entry, inside, rfl⟩ := List.mem_map.mp member
  exact ⟨entry, inside, (identities entry).symm.trans same, (owners entry).symm.trans owner⟩

end Entries

/-! ## Requests -/

/-- The session has the same objects in both. -/
structure ObjectGraph.SameFor (session : OwnerSessionId) (left right : ObjectGraph) : Prop where
  contexts : (heldBy session left.contexts).Perm (heldBy session right.contexts)
  pds : (heldBy session left.pds).Perm (heldBy session right.pds)
  mrs : (heldBy session left.mrs).Perm (heldBy session right.mrs)
  cqs : (heldBy session left.cqs).Perm (heldBy session right.cqs)
  qps : (heldBy session left.qps).Perm (heldBy session right.qps)

namespace ObjectGraph

variable {left middle right : ObjectGraph} {session : OwnerSessionId}

theorem SameFor.refl (session : OwnerSessionId) (graph : ObjectGraph) :
    graph.SameFor session graph :=
  ⟨.refl _, .refl _, .refl _, .refl _, .refl _⟩

theorem Same.sameFor (same : left.Same right) (session : OwnerSessionId) :
    left.SameFor session right :=
  ⟨same.contexts.filter _, same.pds.filter _, same.mrs.filter _, same.cqs.filter _,
    same.qps.filter _⟩

theorem SameFor.trans (first : left.SameFor session middle)
    (second : middle.SameFor session right) : left.SameFor session right :=
  ⟨first.contexts.trans second.contexts, first.pds.trans second.pds,
    first.mrs.trans second.mrs, first.cqs.trans second.cqs, first.qps.trans second.qps⟩

end ObjectGraph

namespace QpService

open ObjectGraph

variable {service after : QpService} {session other : OwnerSessionId}
  {request : ControlRequest} {environment : Environment} {response : ControlResponse}

/-- A context counts objects of its own session only. -/
theorem Valid.pdContext_owned (valid : service.Valid) {pd : Entry PdRecord}
    (member : pd ∈ service.graph.pds) :
    Owned service.graph.contexts pd.record.contextIdentity pd.owner :=
  valid.consistent.pdContext pd member

theorem Valid.cqContext_owned (valid : service.Valid) {cq : Entry CqRecord}
    (member : cq ∈ service.graph.cqs) :
    Owned service.graph.contexts cq.record.contextIdentity cq.owner :=
  valid.consistent.cqContext cq member

theorem Valid.mrPd_owned (valid : service.Valid) {mr : Entry MrRecord}
    (member : mr ∈ service.graph.mrs) :
    Owned service.graph.pds mr.record.pdIdentity mr.owner := by
  obtain ⟨pd, inside, same, owner, -⟩ := valid.consistent.mrPd mr member
  exact ⟨pd, inside, same, owner⟩

theorem Valid.qpPd_owned (valid : service.Valid) {qp : Entry QpRecord}
    (member : qp ∈ service.graph.qps) :
    Owned service.graph.pds qp.record.pdIdentity qp.owner := by
  obtain ⟨pd, inside, same, owner, -⟩ := valid.consistent.qpPd qp member
  exact ⟨pd, inside, same, owner⟩

theorem Valid.qpSendCq_owned (valid : service.Valid) {qp : Entry QpRecord}
    (member : qp ∈ service.graph.qps) :
    Owned service.graph.cqs qp.record.sendCqIdentity qp.owner := by
  obtain ⟨cq, inside, same, owner, -⟩ := valid.consistent.qpSendCq qp member
  exact ⟨cq, inside, same, owner⟩

theorem Valid.qpRecvCq_owned (valid : service.Valid) {qp : Entry QpRecord}
    (member : qp ∈ service.graph.qps) :
    Owned service.graph.cqs qp.record.recvCqIdentity qp.owner := by
  obtain ⟨cq, inside, same, owner, -⟩ := valid.consistent.qpRecvCq qp member
  exact ⟨cq, inside, same, owner⟩

/-- What a request applies leaves the objects of the other sessions alone. An object that is
created shows in the state after the request whom its parents belong to, and one that is
destroyed in the state before. -/
theorem Applied.sameFor {graph : ObjectGraph}
    (applied : Applied service session request environment response graph)
    (valid : service.Valid) (validAfter : after.Valid) (same : after.graph.Same graph)
    (different : other ≠ session) : graph.SameFor other service.graph := by
  have distinct := valid.distinct
  have unchanged := SameFor.refl other service.graph
  cases applied with
  | observed method => exact unchanged
  | createContext method fresh =>
      exact { unchanged with contexts := .of_eq (heldBy_cons_of_ne different _) }
  | destroyContext context contexts method removed =>
      exact { unchanged with contexts := heldBy_of_removed removed different }
  | createPd method fresh =>
      have created := same.pds.mem_iff.mpr List.mem_cons_self
      have owned := ((validAfter.pdContext_owned created).perm same.contexts).of_map
        (adjustChildren_identity _ _) (adjustChildren_owner _ _)
      exact
        { unchanged with
          contexts := .of_eq (heldBy_adjust distinct.contexts owned different _)
          pds := .of_eq (heldBy_cons_of_ne different _) }
  | destroyPd pd pds method removed =>
      have owned := valid.pdContext_owned (removed.mem_iff.mpr List.mem_cons_self)
      exact
        { unchanged with
          contexts := .of_eq (heldBy_adjust distinct.contexts owned different _)
          pds := heldBy_of_removed removed different }
  | registerMr pd memory mapping method parent opened available fresh =>
      have owned : Owned service.graph.pds request.objectIdentity session :=
        ⟨_, parent, rfl, rfl⟩
      exact
        { unchanged with
          pds := .of_eq (heldBy_adjust distinct.pds owned different _)
          mrs := .of_eq (heldBy_cons_of_ne different _) }
  | deregisterMr mr mrs method closed removed =>
      have owned := valid.mrPd_owned (removed.mem_iff.mpr List.mem_cons_self)
      exact
        { unchanged with
          pds := .of_eq (heldBy_adjust distinct.pds owned different _)
          mrs := heldBy_of_removed removed different }
  | createCq completions method fresh =>
      have created := same.cqs.mem_iff.mpr List.mem_cons_self
      have owned := ((validAfter.cqContext_owned created).perm same.contexts).of_map
        (adjustChildren_identity _ _) (adjustChildren_owner _ _)
      exact
        { unchanged with
          contexts := .of_eq (heldBy_adjust distinct.contexts owned different _)
          cqs := .of_eq (heldBy_cons_of_ne different _) }
  | destroyCq cq cqs method removed =>
      have owned := valid.cqContext_owned (removed.mem_iff.mpr List.mem_cons_self)
      exact
        { unchanged with
          contexts := .of_eq (heldBy_adjust distinct.contexts owned different _)
          cqs := heldBy_of_removed removed different }
  | createQp attributes pd queues method available fresh =>
      have created := same.qps.mem_iff.mpr List.mem_cons_self
      have pdOwned := ((validAfter.qpPd_owned created).perm same.pds).of_map
        (Entry.adjust_identity _ _) (Entry.adjust_owner _ _)
      have sendOwned := ((validAfter.qpSendCq_owned created).perm same.cqs).of_map
        (adjustCqs_identity _ _ _) (adjustCqs_owner _ _ _)
      have recvOwned := ((validAfter.qpRecvCq_owned created).perm same.cqs).of_map
        (adjustCqs_identity _ _ _) (adjustCqs_owner _ _ _)
      exact
        { unchanged with
          pds := .of_eq (heldBy_adjust distinct.pds pdOwned different _)
          cqs := .of_eq (heldBy_adjustCqs distinct.cqs sendOwned recvOwned different _)
          qps := .of_eq (heldBy_cons_of_ne different _) }
  | destroyQp qp qps method removed =>
      have target := removed.mem_iff.mpr List.mem_cons_self
      exact
        { unchanged with
          pds := .of_eq (heldBy_adjust distinct.pds (valid.qpPd_owned target) different _)
          cqs := .of_eq (heldBy_adjustCqs distinct.cqs (valid.qpSendCq_owned target)
            (valid.qpRecvCq_owned target) different _)
          qps := heldBy_of_removed removed different }
  | modifyQp attributes mask qp updated method decoded target modified =>
      have owned : Owned service.graph.qps request.objectIdentity session :=
        ⟨_, target, rfl, rfl⟩
      exact
        { unchanged with
          qps := .of_eq (heldBy_adjust distinct.qps owned different _) }
  | connectQp remoteQpNum remoteIdentity attributes mask qp remote method decoded target
      checked unbound ready indexed found accepts =>
      have owned : Owned service.graph.qps request.objectIdentity session :=
        ⟨_, target, rfl, rfl⟩
      exact
        { unchanged with
          qps := .of_eq (heldBy_adjust distinct.qps owned different _) }

/-- The objects of a session are the same ones with the same fields, and so are the entries
of the index that name its queue pairs. -/
structure Untouched (session : OwnerSessionId) (before after : QpService) : Prop where
  contexts : (heldBy session after.contexts.entries).Perm
    (heldBy session before.contexts.entries)
  pds : (heldBy session after.pds.entries).Perm (heldBy session before.pds.entries)
  mrs : (heldBy session after.mrs.entries).Perm (heldBy session before.mrs.entries)
  cqs : (heldBy session after.cqs.entries).Perm (heldBy session before.cqs.entries)
  qps : (heldBy session after.qps.entries).Perm (heldBy session before.qps.entries)
  qpNumIndex : ∀ qp ∈ heldBy session before.qps.entries, ∀ number,
    after.qpNumIndex number = some qp.identity ↔ before.qpNumIndex number = some qp.identity

theorem Untouched.refl (session : OwnerSessionId) (service : QpService) :
    Untouched session service service :=
  ⟨.refl _, .refl _, .refl _, .refl _, .refl _, fun _ _ _ => .rfl⟩

/-- The number of a queue pair is the only one under which it is indexed. -/
theorem Valid.indexed_iff (valid : service.Valid) {qp : Entry QpRecord}
    (member : qp ∈ service.qps.entries) (number : Nat) :
    service.qpNumIndex number = some qp.identity ↔ qp.record.qpNum = number := by
  have exact := valid.consistent.qpNumIndex service.qpNumIndex List.mem_cons_self
    (number, qp.identity)
  constructor
  · intro indexed
    obtain ⟨found, foundMember, same, identity⟩ := exact.mp indexed
    rw [← List.inj_on_of_nodup_map valid.distinct.qps foundMember member identity]
    exact same
  · intro same
    exact exact.mpr ⟨qp, member, same, rfl⟩

theorem untouched_of_sameFor (valid : service.Valid) (validAfter : after.Valid)
    (same : after.graph.SameFor session service.graph) : Untouched session service after := by
  refine ⟨same.contexts, same.pds, same.mrs, same.cqs, same.qps, fun qp held number => ?_⟩
  have remains := (mem_heldBy.mp (same.qps.mem_iff.mpr held)).1
  rw [valid.indexed_iff (mem_heldBy.mp held).1, validAfter.indexed_iff remains]

/-- A request leaves the other sessions alone. -/
theorem handle_untouched (valid : service.Valid) (request : ControlRequest)
    (environment : Environment) (different : other ≠ session) :
    Untouched other service (handle service session request environment).2 := by
  have outcome := handle_outcome valid session request environment
  refine untouched_of_sameFor valid (handle_valid valid) ?_
  by_cases ok : (handle service session request environment).1.status = none
  · obtain ⟨graph, applied, same⟩ := outcome.applied ok
    exact (same.sameFor other).trans (applied.sameFor valid (handle_valid valid) same different)
  · have same := (outcome.refused ok).same.sameFor other
    exact ⟨same.contexts, same.pds, same.mrs, same.cqs, same.qps⟩

/-! ## Disconnects -/

theorem heldBy_filter {Record : Type} {entries : List (Entry Record)}
    (different : other ≠ session) :
    heldBy other (entries.filter fun entry => entry.owner ≠ session) = heldBy other entries := by
  rw [heldBy, heldBy, List.filter_filter]
  refine List.filter_congr fun entry _ => ?_
  by_cases held : entry.owner = other <;> simp [held, different]

/-- A disconnect leaves the other sessions alone. -/
theorem onDisconnect_untouched (valid : service.Valid) (different : other ≠ session) :
    Untouched other service (service.onDisconnect session) := by
  refine untouched_of_sameFor valid (onDisconnect_valid valid session) ?_
  have erased : ∀ {Record : Type} {type : ObjectType}
      {registry : GenerationRegistry Record type}, registry.WellFormed →
      (heldBy other (registry.eraseSession session).2.entries).Perm
        (heldBy other registry.entries) := by
    intro Record type registry wellFormed
    rw [(eraseSession_entries wellFormed session).2, heldBy_filter different]
  exact ⟨erased valid.contexts, erased valid.pds, erased valid.mrs, erased valid.cqs,
    erased valid.qps⟩

/-- Nothing of the session is left, and the indexes lead to live objects of others only. -/
structure Cleared (session : OwnerSessionId) (service : QpService) : Prop where
  contexts : ∀ context ∈ service.contexts.entries, context.owner ≠ session
  pds : ∀ pd ∈ service.pds.entries, pd.owner ≠ session
  mrs : ∀ mr ∈ service.mrs.entries, mr.owner ≠ session
  cqs : ∀ cq ∈ service.cqs.entries, cq.owner ≠ session
  qps : ∀ qp ∈ service.qps.entries, qp.owner ≠ session
  keys : ∀ pd ∈ service.pds.entries, ∀ key identity,
    pd.record.localKeyIndex key = some identity ∨ pd.record.remoteKeyIndex key = some identity →
      ∃ mr ∈ service.mrs.entries, mr.identity = identity ∧ mr.owner ≠ session
  qpNumIndex : ∀ number identity, service.qpNumIndex number = some identity →
    ∃ qp ∈ service.qps.entries, qp.identity = identity ∧ qp.owner ≠ session

theorem onDisconnect_cleared (valid : service.Valid) (session : OwnerSessionId) :
    Cleared session (service.onDisconnect session) := by
  have validAfter := onDisconnect_valid valid session
  have erased : ∀ {Record : Type} {type : ObjectType}
      {registry : GenerationRegistry Record type}, registry.WellFormed →
      ∀ entry ∈ (registry.eraseSession session).2.entries, entry.owner ≠ session := by
    intro Record type registry wellFormed entry member
    rw [(eraseSession_entries wellFormed session).2] at member
    exact of_decide_eq_true (List.mem_filter.mp member).2
  have mrs := erased valid.mrs
  have qps := erased valid.qps
  refine ⟨erased valid.contexts, erased valid.pds, mrs, erased valid.cqs, qps,
    fun pd member key identity indexed => ?_, fun number identity indexed => ?_⟩
  · rcases indexed with indexed | indexed
    · obtain ⟨mr, found, -, same, -⟩ :=
        (validAfter.consistent.localKeyIndex pd member (key, identity)).mp indexed
      exact ⟨mr, found, same, mrs mr found⟩
    · obtain ⟨mr, found, -, same, -⟩ :=
        (validAfter.consistent.remoteKeyIndex pd member (key, identity)).mp indexed
      exact ⟨mr, found, same, mrs mr found⟩
  · obtain ⟨qp, found, -, same⟩ :=
      (validAfter.consistent.qpNumIndex _ List.mem_cons_self (number, identity)).mp indexed
    exact ⟨qp, found, same, qps qp found⟩

/-- A registry without objects of the session is not changed. -/
theorem eraseSession_of_none {Record : Type} {type : ObjectType}
    {registry : GenerationRegistry Record type}
    (none : ∀ entry ∈ registry.entries, entry.owner ≠ session) :
    (registry.eraseSession session).2 = registry := by
  have skipped : ∀ indices : List Nat,
      (indices.foldl (releaseOwned session) (0, registry)) = (0, registry) := by
    intro indices
    induction indices with
    | nil => rfl
    | cons index indices induction =>
        have here : releaseOwned session (0, registry) index = (0, registry) := by
          unfold releaseOwned
          split
          · rfl
          · rename_i slot found
            refine if_neg fun ⟨occupied, owned⟩ => ?_
            obtain ⟨record, value⟩ := Option.isSome_iff_exists.mp occupied
            exact none ⟨_, slot.ownerSession, record⟩
              (mem_entries.mpr ⟨index, slot, found, value, rfl, rfl⟩) owned
        rw [List.foldl_cons, here, induction]
  rw [eraseSession, skipped]

/-- A session that has left nothing behind leaves nothing to do. -/
theorem onDisconnect_of_cleared (valid : service.Valid) (cleared : Cleared session service) :
    service.onDisconnect session = service := by
  have visited : service.qps.forEachSession session = [] := by
    refine List.eq_nil_iff_forall_not_mem.mpr fun visit member => ?_
    exact cleared.qps _ ((mem_forEachSession valid.qps (by decide)).mp member) rfl
  simp only [onDisconnect, visited, dropQpNumbers, List.foldl_nil,
    eraseSession_of_none cleared.contexts, eraseSession_of_none cleared.pds,
    eraseSession_of_none cleared.mrs, eraseSession_of_none cleared.cqs,
    eraseSession_of_none cleared.qps]

end QpService

end Ugdr.Control
