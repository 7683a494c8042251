import Ugdr.Foundation.References
import Ugdr.Control.QpHandlers
import Ugdr.Control.RegistryEntries

/-! # The object graph

The live objects of the daemon as five tables of entries. Consistency says that
every reference leads to an object of the same session and context and that every
count and index a record keeps agrees with the tables. Each way in which the
tables change keeps it.
-/

namespace Ugdr.Control

open References GenerationRegistry

structure ObjectGraph where
  contexts : List (Entry ContextRecord)
  pds : List (Entry PdRecord)
  mrs : List (Entry MrRecord)
  cqs : List (Entry CqRecord)
  qps : List (Entry QpRecord)
  nextKey : Nat
  qpNumIndex : Nat → Option Nat
  nextQpNum : Nat

namespace ObjectGraph

/-- The objects a context counts. -/
def children (graph : ObjectGraph) : List (Entry PdRecord ⊕ Entry CqRecord) :=
  graph.pds.map .inl ++ graph.cqs.map .inr

/-- The identity of the context a child names. -/
def contextOf : Entry PdRecord ⊕ Entry CqRecord → Nat
  | .inl pd => pd.record.contextIdentity
  | .inr cq => cq.record.contextIdentity

def namesContext (child : Entry PdRecord ⊕ Entry CqRecord)
    (context : Entry ContextRecord) : Bool :=
  contextOf child = context.identity

def namesPd (qp : Entry QpRecord) (pd : Entry PdRecord) : Bool :=
  qp.record.pdIdentity = pd.identity

/-- A QP with one CQ for both directions uses it once. -/
def usesCq (qp : Entry QpRecord) (cq : Entry CqRecord) : Bool :=
  qp.record.sendCqIdentity = cq.identity ∨ qp.record.recvCqIdentity = cq.identity

structure Consistent (graph : ObjectGraph) : Prop where
  pdContext : Parented (fun pd context =>
    context.identity = pd.record.contextIdentity ∧ context.owner = pd.owner)
    graph.contexts graph.pds
  cqContext : Parented (fun cq context =>
    context.identity = cq.record.contextIdentity ∧ context.owner = cq.owner)
    graph.contexts graph.cqs
  mrPd : Parented (fun mr pd =>
    pd.identity = mr.record.pdIdentity ∧ pd.owner = mr.owner ∧
      pd.record.contextIdentity = mr.record.contextIdentity)
    graph.pds graph.mrs
  qpPd : Parented (fun qp pd =>
    pd.identity = qp.record.pdIdentity ∧ pd.owner = qp.owner ∧
      pd.record.contextIdentity = qp.record.contextIdentity)
    graph.pds graph.qps
  qpSendCq : Parented (fun qp cq =>
    cq.identity = qp.record.sendCqIdentity ∧ cq.owner = qp.owner ∧
      cq.record.contextIdentity = qp.record.contextIdentity)
    graph.cqs graph.qps
  qpRecvCq : Parented (fun qp cq =>
    cq.identity = qp.record.recvCqIdentity ∧ cq.owner = qp.owner ∧
      cq.record.contextIdentity = qp.record.contextIdentity)
    graph.cqs graph.qps
  childCount : Counted (fun context => context.record.childCount) namesContext
    graph.contexts graph.children
  qpCount : Counted (fun pd => pd.record.qpCount) namesPd graph.pds graph.qps
  qpReferences : Counted (fun cq => cq.record.qpReferences) usesCq graph.cqs graph.qps
  mrIdentities : Exact (fun pd identity => identity ∈ pd.record.mrIdentities)
    (fun mr pd identity => mr.identity = identity ∧ mr.record.pdIdentity = pd.identity)
    graph.pds graph.mrs
  localKeyIndex : Exact
    (fun pd (entry : Nat × Nat) => pd.record.localKeyIndex entry.1 = some entry.2)
    (fun mr pd entry => mr.record.lkey = entry.1 ∧ mr.identity = entry.2 ∧
      mr.record.pdIdentity = pd.identity)
    graph.pds graph.mrs
  remoteKeyIndex : Exact
    (fun pd (entry : Nat × Nat) => pd.record.remoteKeyIndex entry.1 = some entry.2)
    (fun mr pd entry => mr.record.rkey = entry.1 ∧ mr.identity = entry.2 ∧
      mr.record.pdIdentity = pd.identity)
    graph.pds graph.mrs
  qpNumIndex : Exact
    (fun (index : Nat → Option Nat) (entry : Nat × Nat) => index entry.1 = some entry.2)
    (fun qp _ entry => qp.record.qpNum = entry.1 ∧ qp.identity = entry.2)
    [graph.qpNumIndex] graph.qps
  keysBelow : ∀ mr ∈ graph.mrs,
    mr.record.lkey < graph.nextKey ∧ mr.record.rkey < graph.nextKey
  qpNumsBelow : graph.nextQpNum = 0 ∨ ∀ qp ∈ graph.qps, qp.record.qpNum < graph.nextQpNum
  mrUnused : ∀ mr ∈ graph.mrs, mr.record.workRequestReferences = 0
  qpOwner : ∀ qp ∈ graph.qps, qp.record.ownerSession = qp.owner

/-- No two objects of one kind share an identity. -/
structure Distinct (graph : ObjectGraph) : Prop where
  contexts : (graph.contexts.map Entry.identity).Nodup
  pds : (graph.pds.map Entry.identity).Nodup
  mrs : (graph.mrs.map Entry.identity).Nodup
  cqs : (graph.cqs.map Entry.identity).Nodup
  qps : (graph.qps.map Entry.identity).Nodup

variable {graph : ObjectGraph}

theorem mem_children {child : Entry PdRecord ⊕ Entry CqRecord} :
    child ∈ graph.children ↔
      (∃ pd ∈ graph.pds, child = .inl pd) ∨ (∃ cq ∈ graph.cqs, child = .inr cq) := by
  simp [children, eq_comm]

/-- The order of the tables does not matter. -/
theorem Consistent.perm (consistent : graph.Consistent) {contexts : List (Entry ContextRecord)}
    {pds : List (Entry PdRecord)} {mrs : List (Entry MrRecord)}
    {cqs : List (Entry CqRecord)} {qps : List (Entry QpRecord)}
    (sameContexts : graph.contexts.Perm contexts) (samePds : graph.pds.Perm pds)
    (sameMrs : graph.mrs.Perm mrs) (sameCqs : graph.cqs.Perm cqs)
    (sameQps : graph.qps.Perm qps) :
    Consistent { graph with contexts, pds, mrs, cqs, qps } where
  pdContext := consistent.pdContext.mono sameContexts.subset samePds.symm.subset
  cqContext := consistent.cqContext.mono sameContexts.subset sameCqs.symm.subset
  mrPd := consistent.mrPd.mono samePds.subset sameMrs.symm.subset
  qpPd := consistent.qpPd.mono samePds.subset sameQps.symm.subset
  qpSendCq := consistent.qpSendCq.mono sameCqs.subset sameQps.symm.subset
  qpRecvCq := consistent.qpRecvCq.mono sameCqs.subset sameQps.symm.subset
  childCount := consistent.childCount.mono sameContexts.symm.subset
    ((samePds.map _).append (sameCqs.map _))
  qpCount := consistent.qpCount.mono samePds.symm.subset sameQps
  qpReferences := consistent.qpReferences.mono sameCqs.symm.subset sameQps
  mrIdentities := consistent.mrIdentities.mono samePds.symm.subset sameMrs
  localKeyIndex := consistent.localKeyIndex.mono samePds.symm.subset sameMrs
  remoteKeyIndex := consistent.remoteKeyIndex.mono samePds.symm.subset sameMrs
  qpNumIndex := consistent.qpNumIndex.mono (List.Subset.refl _) sameQps
  keysBelow := fun mr member => consistent.keysBelow mr (sameMrs.symm.subset member)
  qpNumsBelow := consistent.qpNumsBelow.imp_right
    fun below qp member => below qp (sameQps.symm.subset member)
  mrUnused := fun mr member => consistent.mrUnused mr (sameMrs.symm.subset member)
  qpOwner := fun qp member => consistent.qpOwner qp (sameQps.symm.subset member)

theorem empty_consistent (nextKey nextQpNum : Nat) :
    Consistent ⟨[], [], [], [], [], nextKey, fun _ => none, nextQpNum⟩ := by
  constructor <;> simp [Parented, Counted, Exact]

/-! ## Contexts -/

theorem Consistent.addContext (consistent : graph.Consistent)
    {context : Entry ContextRecord}
    (fresh : context.identity ∉ graph.contexts.map Entry.identity)
    (zero : context.record.childCount = 0) :
    Consistent { graph with contexts := context :: graph.contexts } := by
  refine { consistent with
    pdContext := consistent.pdContext.mono (List.subset_cons_self ..) (List.Subset.refl _)
    cqContext := consistent.cqContext.mono (List.subset_cons_self ..) (List.Subset.refl _)
    childCount := consistent.childCount.add_parent zero ?_ }
  intro child member
  rw [Bool.eq_false_iff]
  intro named
  rcases mem_children.mp member with ⟨pd, pdMember, rfl⟩ | ⟨cq, cqMember, rfl⟩
  · obtain ⟨parent, parentMember, same, -⟩ := consistent.pdContext pd pdMember
    refine fresh (List.mem_map.mpr ⟨parent, parentMember, ?_⟩)
    exact same.trans (of_decide_eq_true named)
  · obtain ⟨parent, parentMember, same, -⟩ := consistent.cqContext cq cqMember
    refine fresh (List.mem_map.mpr ⟨parent, parentMember, ?_⟩)
    exact same.trans (of_decide_eq_true named)

theorem Consistent.removeContext {context : Entry ContextRecord}
    {contexts : List (Entry ContextRecord)}
    (consistent : Consistent { graph with contexts := context :: contexts })
    (zero : context.record.childCount = 0) :
    Consistent { graph with contexts := contexts } := by
  have unused := (consistent.childCount.zero_iff (List.mem_cons_self ..)).mp zero
  refine { consistent with
    pdContext := consistent.pdContext.remove_parent ?_
    cqContext := consistent.cqContext.remove_parent ?_
    childCount := consistent.childCount.mono (List.subset_cons_self ..) (.refl _) }
  · rintro pd member ⟨same, -⟩
    have named := unused (.inl pd) (mem_children.mpr (.inl ⟨pd, member, rfl⟩))
    simp [namesContext, contextOf, same] at named
  · rintro cq member ⟨same, -⟩
    have named := unused (.inr cq) (mem_children.mpr (.inr ⟨cq, member, rfl⟩))
    simp [namesContext, contextOf, same] at named

/-- Change the child count of one context. -/
def adjustChildren (identity : Nat) (change : Nat → Nat) :
    Entry ContextRecord → Entry ContextRecord :=
  Entry.adjust identity fun context =>
    { context with childCount := change context.childCount }

@[simp] theorem adjustChildren_identity (identity : Nat) (change : Nat → Nat)
    (context : Entry ContextRecord) :
    (adjustChildren identity change context).identity = context.identity := by
  simp [adjustChildren]

@[simp] theorem adjustChildren_owner (identity : Nat) (change : Nat → Nat)
    (context : Entry ContextRecord) :
    (adjustChildren identity change context).owner = context.owner := by
  simp [adjustChildren]

theorem adjustChildren_childCount (identity : Nat) (change : Nat → Nat)
    (context : Entry ContextRecord) :
    (adjustChildren identity change context).record.childCount =
      if context.identity = identity then change context.record.childCount
      else context.record.childCount := by
  simp only [adjustChildren, Entry.adjust_record]
  split <;> rfl

theorem namesContext_adjustChildren (identity : Nat) (change : Nat → Nat)
    (context : Entry ContextRecord) (child : Entry PdRecord ⊕ Entry CqRecord) :
    namesContext child (adjustChildren identity change context) =
      namesContext child context := by
  simp [namesContext]

theorem namesContext_congr {left right : Entry PdRecord ⊕ Entry CqRecord}
    {context : Entry ContextRecord} (same : contextOf left = contextOf right) :
    namesContext left context = namesContext right context := by
  unfold namesContext
  rw [same]

theorem childCount_add_one (child : Entry PdRecord ⊕ Entry CqRecord)
    (context : Entry ContextRecord) :
    (adjustChildren (contextOf child) (· + 1) context).record.childCount =
      context.record.childCount + if namesContext child context then 1 else 0 := by
  rw [adjustChildren_childCount]
  by_cases named : context.identity = contextOf child
  · simp [namesContext, named]
  · simp [namesContext, named, Ne.symm named]

theorem childCount_sub_one (child : Entry PdRecord ⊕ Entry CqRecord)
    (context : Entry ContextRecord) :
    (adjustChildren (contextOf child) (· - 1) context).record.childCount =
      context.record.childCount - if namesContext child context then 1 else 0 := by
  rw [adjustChildren_childCount]
  by_cases named : context.identity = contextOf child
  · simp [namesContext, named]
  · simp [namesContext, named, Ne.symm named]

/-! ## Protection domains -/

/-- No MR or QP can name a PD that is only now created. -/
theorem Consistent.unusedPd (consistent : graph.Consistent) {identity : Nat}
    (fresh : identity ∉ graph.pds.map Entry.identity) :
    (∀ mr ∈ graph.mrs, mr.record.pdIdentity ≠ identity) ∧
      ∀ qp ∈ graph.qps, qp.record.pdIdentity ≠ identity := by
  constructor
  · intro mr member same
    obtain ⟨pd, pdMember, named, -⟩ := consistent.mrPd mr member
    exact fresh (List.mem_map.mpr ⟨pd, pdMember, named.trans same⟩)
  · intro qp member same
    obtain ⟨pd, pdMember, named, -⟩ := consistent.qpPd qp member
    exact fresh (List.mem_map.mpr ⟨pd, pdMember, named.trans same⟩)

theorem Consistent.addPd (consistent : graph.Consistent) (pd : Entry PdRecord)
    {context : Entry ContextRecord} (member : context ∈ graph.contexts)
    (named : context.identity = pd.record.contextIdentity) (owned : context.owner = pd.owner)
    (fresh : pd.identity ∉ graph.pds.map Entry.identity)
    (noMrs : pd.record.mrIdentities = ∅)
    (noLocalKeys : pd.record.localKeyIndex = fun _ => none)
    (noRemoteKeys : pd.record.remoteKeyIndex = fun _ => none)
    (noQps : pd.record.qpCount = 0) :
    Consistent { graph with
      contexts := graph.contexts.map (adjustChildren pd.record.contextIdentity (· + 1))
      pds := pd :: graph.pds } := by
  obtain ⟨unusedByMrs, unusedByQps⟩ := consistent.unusedPd fresh
  have counts : Counted (fun context => context.record.childCount) namesContext
      (graph.contexts.map (adjustChildren pd.record.contextIdentity (· + 1)))
      (.inl pd :: graph.children) :=
    consistent.childCount.add_child (.inl pd) _ (namesContext_adjustChildren _ _)
      (fun parent _ => childCount_add_one (.inl pd) parent)
  refine { consistent with
    pdContext := ?pdContext
    cqContext := consistent.cqContext.map_parents (by simp)
    mrPd := consistent.mrPd.mono (List.subset_cons_self ..) (List.Subset.refl _)
    qpPd := consistent.qpPd.mono (List.subset_cons_self ..) (List.Subset.refl _)
    childCount := counts
    qpCount := consistent.qpCount.add_parent noQps ?qpCount
    mrIdentities := consistent.mrIdentities.add_parent (by simp [noMrs]) ?mrIdentities
    localKeyIndex := consistent.localKeyIndex.add_parent (by simp [noLocalKeys]) ?localKeys
    remoteKeyIndex :=
      consistent.remoteKeyIndex.add_parent (by simp [noRemoteKeys]) ?remoteKeys }
  case pdContext =>
    exact (consistent.pdContext.cons member ⟨named, owned⟩).map_parents (by simp)
  case qpCount =>
    intro qp qpMember
    simpa [namesPd] using unusedByQps qp qpMember
  case mrIdentities =>
    rintro mr mrMember identity ⟨-, same⟩
    exact unusedByMrs mr mrMember same
  case localKeys =>
    rintro mr mrMember entry ⟨-, -, same⟩
    exact unusedByMrs mr mrMember same
  case remoteKeys =>
    rintro mr mrMember entry ⟨-, -, same⟩
    exact unusedByMrs mr mrMember same

theorem Consistent.removePd {pd : Entry PdRecord} {pds : List (Entry PdRecord)}
    (consistent : Consistent { graph with pds := pd :: pds })
    (noMrs : pd.record.mrIdentities = ∅) (noQps : pd.record.qpCount = 0) :
    Consistent { graph with
      contexts := graph.contexts.map (adjustChildren pd.record.contextIdentity (· - 1))
      pds := pds } := by
  have noQp := (consistent.qpCount.zero_iff (List.mem_cons_self ..)).mp noQps
  have noMr : ∀ mr ∈ graph.mrs, mr.record.pdIdentity ≠ pd.identity := by
    intro mr member same
    have known := (consistent.mrIdentities pd (List.mem_cons_self ..) mr.identity).mpr
      ⟨mr, member, rfl, same⟩
    simp [noMrs] at known
  have counts : Counted (fun context => context.record.childCount) namesContext
      (graph.contexts.map (adjustChildren pd.record.contextIdentity (· - 1)))
      (children { graph with pds := pds }) :=
    Counted.drop_child (Sum.inl pd) consistent.childCount _
      (namesContext_adjustChildren _ _) (fun parent _ => childCount_sub_one (.inl pd) parent)
  refine { consistent with
    pdContext := ?pdContext
    cqContext := consistent.cqContext.map_parents (by simp)
    mrPd := consistent.mrPd.remove_parent ?mrPd
    qpPd := consistent.qpPd.remove_parent ?qpPd
    childCount := counts
    qpCount := consistent.qpCount.mono (List.subset_cons_self ..) (.refl _)
    mrIdentities := consistent.mrIdentities.mono (List.subset_cons_self ..) (.refl _)
    localKeyIndex := consistent.localKeyIndex.mono (List.subset_cons_self ..) (.refl _)
    remoteKeyIndex := consistent.remoteKeyIndex.mono (List.subset_cons_self ..) (.refl _) }
  case pdContext =>
    exact (consistent.pdContext.mono (List.Subset.refl _)
      (List.subset_cons_self ..)).map_parents (by simp)
  case mrPd =>
    rintro mr member ⟨same, -⟩
    exact noMr mr member same.symm
  case qpPd =>
    rintro qp member ⟨same, -⟩
    simpa [namesPd, same] using noQp qp member

/-! ## Completion queues -/

theorem Consistent.addCq (consistent : graph.Consistent) (cq : Entry CqRecord)
    {context : Entry ContextRecord} (member : context ∈ graph.contexts)
    (named : context.identity = cq.record.contextIdentity) (owned : context.owner = cq.owner)
    (fresh : cq.identity ∉ graph.cqs.map Entry.identity)
    (noQps : cq.record.qpReferences = 0) :
    Consistent { graph with
      contexts := graph.contexts.map (adjustChildren cq.record.contextIdentity (· + 1))
      cqs := cq :: graph.cqs } := by
  have counts : Counted (fun context => context.record.childCount) namesContext
      (graph.contexts.map (adjustChildren cq.record.contextIdentity (· + 1)))
      (.inr cq :: graph.children) :=
    consistent.childCount.add_child (.inr cq) _ (namesContext_adjustChildren _ _)
      (fun parent _ => childCount_add_one (.inr cq) parent)
  refine { consistent with
    pdContext := consistent.pdContext.map_parents (by simp)
    cqContext := (consistent.cqContext.cons member ⟨named, owned⟩).map_parents (by simp)
    qpSendCq := consistent.qpSendCq.mono (List.subset_cons_self ..) (List.Subset.refl _)
    qpRecvCq := consistent.qpRecvCq.mono (List.subset_cons_self ..) (List.Subset.refl _)
    childCount := counts.mono (List.Subset.refl _) List.perm_middle.symm
    qpReferences := consistent.qpReferences.add_parent noQps ?_ }
  intro qp qpMember
  rw [Bool.eq_false_iff]
  intro used
  simp only [usesCq, decide_eq_true_eq] at used
  rcases used with send | receive
  · obtain ⟨other, otherMember, same, -⟩ := consistent.qpSendCq qp qpMember
    exact fresh (List.mem_map.mpr ⟨other, otherMember, same.trans send⟩)
  · obtain ⟨other, otherMember, same, -⟩ := consistent.qpRecvCq qp qpMember
    exact fresh (List.mem_map.mpr ⟨other, otherMember, same.trans receive⟩)

theorem Consistent.removeCq {cq : Entry CqRecord} {cqs : List (Entry CqRecord)}
    (consistent : Consistent { graph with cqs := cq :: cqs })
    (noQps : cq.record.qpReferences = 0) :
    Consistent { graph with
      contexts := graph.contexts.map (adjustChildren cq.record.contextIdentity (· - 1))
      cqs := cqs } := by
  have noQp := (consistent.qpReferences.zero_iff (List.mem_cons_self ..)).mp noQps
  have counts : Counted (fun context => context.record.childCount) namesContext
      (graph.contexts.map (adjustChildren cq.record.contextIdentity (· - 1)))
      (children { graph with cqs := cqs }) :=
    Counted.drop_child (Sum.inr cq)
      (consistent.childCount.mono (List.Subset.refl _) List.perm_middle) _
      (namesContext_adjustChildren _ _) (fun parent _ => childCount_sub_one (.inr cq) parent)
  refine { consistent with
    pdContext := consistent.pdContext.map_parents (by simp)
    cqContext := ?cqContext
    qpSendCq := consistent.qpSendCq.remove_parent ?qpSendCq
    qpRecvCq := consistent.qpRecvCq.remove_parent ?qpRecvCq
    childCount := counts
    qpReferences := consistent.qpReferences.mono (List.subset_cons_self ..) (.refl _) }
  case cqContext =>
    exact (consistent.cqContext.mono (List.Subset.refl _)
      (List.subset_cons_self ..)).map_parents (by simp)
  case qpSendCq =>
    rintro qp member ⟨same, -⟩
    have unused := noQp qp member
    simp [usesCq, same] at unused
  case qpRecvCq =>
    rintro qp member ⟨same, -⟩
    have unused := noQp qp member
    simp [usesCq, same] at unused

/-! ## Memory regions -/

/-- A PD that has taken in an MR. -/
def relatedPd (identity lkey rkey : Nat) (pd : PdRecord) : PdRecord :=
  { pd with
    mrIdentities := insert identity pd.mrIdentities
    localKeyIndex := Function.update pd.localKeyIndex lkey (some identity)
    remoteKeyIndex := Function.update pd.remoteKeyIndex rkey (some identity) }

theorem index_insert {index : Nat → Option Nat} {key value : Nat} (free : index key = none)
    (entry : Nat × Nat) :
    Function.update index key (some value) entry.1 = some entry.2 ↔
      index entry.1 = some entry.2 ∨ key = entry.1 ∧ value = entry.2 := by
  by_cases same : entry.1 = key
  · rw [same, Function.update_self, free]
    simp
  · rw [Function.update_of_ne same]
    simp [Ne.symm same]

theorem index_erase {index : Nat → Option Nat} {key value : Nat}
    (known : index key = some value) (entry : Nat × Nat) :
    Function.update index key none entry.1 = some entry.2 ↔
      index entry.1 = some entry.2 ∧ ¬ (key = entry.1 ∧ value = entry.2) := by
  by_cases same : entry.1 = key
  · rw [same, Function.update_self, known]
    simp
  · rw [Function.update_of_ne same]
    simp [Ne.symm same]

/-- Changing what a PD records about its MRs leaves the other relations alone. -/
theorem Consistent.withMrs (consistent : graph.Consistent) {identity nextKey : Nat}
    {mrs : List (Entry MrRecord)} {update : PdRecord → PdRecord}
    (sameContext : ∀ pd, (update pd).contextIdentity = pd.contextIdentity)
    (sameCount : ∀ pd, (update pd).qpCount = pd.qpCount)
    (mrPd : Parented (fun mr pd =>
      pd.identity = mr.record.pdIdentity ∧ pd.owner = mr.owner ∧
        pd.record.contextIdentity = mr.record.contextIdentity) graph.pds mrs)
    (mrIdentities : Exact (fun pd identity => identity ∈ pd.record.mrIdentities)
      (fun mr pd identity => mr.identity = identity ∧ mr.record.pdIdentity = pd.identity)
      (graph.pds.map (Entry.adjust identity update)) mrs)
    (localKeyIndex : Exact
      (fun pd (entry : Nat × Nat) => pd.record.localKeyIndex entry.1 = some entry.2)
      (fun mr pd entry => mr.record.lkey = entry.1 ∧ mr.identity = entry.2 ∧
        mr.record.pdIdentity = pd.identity)
      (graph.pds.map (Entry.adjust identity update)) mrs)
    (remoteKeyIndex : Exact
      (fun pd (entry : Nat × Nat) => pd.record.remoteKeyIndex entry.1 = some entry.2)
      (fun mr pd entry => mr.record.rkey = entry.1 ∧ mr.identity = entry.2 ∧
        mr.record.pdIdentity = pd.identity)
      (graph.pds.map (Entry.adjust identity update)) mrs)
    (keysBelow : ∀ mr ∈ mrs, mr.record.lkey < nextKey ∧ mr.record.rkey < nextKey)
    (mrUnused : ∀ mr ∈ mrs, mr.record.workRequestReferences = 0) :
    Consistent { graph with
      pds := graph.pds.map (Entry.adjust identity update), mrs, nextKey } := by
  have context : ∀ pd : Entry PdRecord,
      (pd.adjust identity update).record.contextIdentity = pd.record.contextIdentity := by
    intro pd
    rw [Entry.adjust_record]
    split
    · exact sameContext pd.record
    · rfl
  refine { consistent with
    pdContext := consistent.pdContext.map_children (by simp [context])
    mrPd := mrPd.map_parents (by simp [context])
    qpPd := consistent.qpPd.map_parents (by simp [context])
    childCount := ?childCount
    qpCount := consistent.qpCount.map_parents ?sameCount (by simp [namesPd])
    mrIdentities := mrIdentities
    localKeyIndex := localKeyIndex
    remoteKeyIndex := remoteKeyIndex
    keysBelow := keysBelow
    mrUnused := mrUnused }
  case childCount =>
    have renamed : (graph.pds.map (Entry.adjust identity update)).map Sum.inl ++
        graph.cqs.map Sum.inr =
        graph.children.map (Sum.map (Entry.adjust identity update) id) := by
      simp [children, Function.comp_def]
    simp only [children]
    rw [renamed]
    refine consistent.childCount.map_children ?_
    intro child _ parent
    cases child with
    | inl pd => exact namesContext_congr (context pd)
    | inr cq => rfl
  case sameCount =>
    intro pd
    simp only [Entry.adjust_record]
    split
    · exact sameCount pd.record
    · rfl

theorem Consistent.addMr (consistent : graph.Consistent)
    (mr : Entry MrRecord) {pd : Entry PdRecord} {nextKey : Nat}
    (member : pd ∈ graph.pds) (named : pd.identity = mr.record.pdIdentity)
    (owned : pd.owner = mr.owner)
    (sameContext : pd.record.contextIdentity = mr.record.contextIdentity)
    (unused : mr.record.workRequestReferences = 0)
    (freshLocal : graph.nextKey ≤ mr.record.lkey)
    (freshRemote : graph.nextKey ≤ mr.record.rkey)
    (belowLocal : mr.record.lkey < nextKey) (belowRemote : mr.record.rkey < nextKey) :
    Consistent { graph with
      pds := graph.pds.map (Entry.adjust mr.record.pdIdentity
        (relatedPd mr.identity mr.record.lkey mr.record.rkey))
      mrs := mr :: graph.mrs, nextKey } := by
  have freeLocal : ∀ pd ∈ graph.pds, pd.record.localKeyIndex mr.record.lkey = none := by
    intro pd pdMember
    by_contra taken
    obtain ⟨value, found⟩ := Option.ne_none_iff_exists'.mp taken
    obtain ⟨other, otherMember, same, -⟩ :=
      (consistent.localKeyIndex pd pdMember (mr.record.lkey, value)).mp found
    have below := (consistent.keysBelow other otherMember).1
    simp only at same
    omega
  have freeRemote : ∀ pd ∈ graph.pds, pd.record.remoteKeyIndex mr.record.rkey = none := by
    intro pd pdMember
    by_contra taken
    obtain ⟨value, found⟩ := Option.ne_none_iff_exists'.mp taken
    obtain ⟨other, otherMember, same, -⟩ :=
      (consistent.remoteKeyIndex pd pdMember (mr.record.rkey, value)).mp found
    have below := (consistent.keysBelow other otherMember).2
    simp only at same
    omega
  refine consistent.withMrs (fun _ => rfl) (fun _ => rfl)
    (consistent.mrPd.cons member ⟨named, owned, sameContext⟩)
    (consistent.mrIdentities.add_child mr _ (by simp) ?mrIdentities)
    (consistent.localKeyIndex.add_child mr _ (by simp) ?localKeyIndex)
    (consistent.remoteKeyIndex.add_child mr _ (by simp) ?remoteKeyIndex) ?keysBelow ?mrUnused
  case mrIdentities =>
    intro parent parentMember identity
    rw [Entry.adjust_record]
    split
    · rename_i here
      simp [relatedPd, here, or_comm, eq_comm]
    · rename_i elsewhere
      simp [Ne.symm elsewhere]
  case localKeyIndex =>
    intro parent parentMember entry
    rw [Entry.adjust_record]
    split
    · rename_i here
      simp only [relatedPd, index_insert (freeLocal parent parentMember), here, and_true]
    · rename_i elsewhere
      simp [Ne.symm elsewhere]
  case remoteKeyIndex =>
    intro parent parentMember entry
    rw [Entry.adjust_record]
    split
    · rename_i here
      simp only [relatedPd, index_insert (freeRemote parent parentMember), here, and_true]
    · rename_i elsewhere
      simp [Ne.symm elsewhere]
  case keysBelow =>
    intro other otherMember
    rcases List.mem_cons.mp otherMember with rfl | old
    · exact ⟨belowLocal, belowRemote⟩
    · have below := consistent.keysBelow other old
      omega
  case mrUnused =>
    intro other otherMember
    rcases List.mem_cons.mp otherMember with rfl | old
    · exact unused
    · exact consistent.mrUnused other old

theorem Consistent.removeMr {mr : Entry MrRecord} {mrs : List (Entry MrRecord)}
    (consistent : Consistent { graph with mrs := mr :: mrs })
    (alone : mr.identity ∉ mrs.map Entry.identity) :
    Consistent { graph with
      pds := graph.pds.map (Entry.adjust mr.record.pdIdentity fun pd =>
        QpService.unrelateMr pd mr.identity mr.record.lkey mr.record.rkey)
      mrs := mrs } := by
  have different : ∀ other ∈ mrs, other.identity ≠ mr.identity := by
    intro other member same
    exact alone (List.mem_map.mpr ⟨other, member, same⟩)
  refine consistent.withMrs (fun _ => rfl) (fun _ => rfl)
    (consistent.mrPd.mono (List.Subset.refl _) (List.subset_cons_self ..))
    (Exact.drop_child mr consistent.mrIdentities _ (by simp) ?mrIdentities ?aloneIdentity)
    (Exact.drop_child mr consistent.localKeyIndex _ (by simp) ?localKeyIndex ?aloneLocal)
    (Exact.drop_child mr consistent.remoteKeyIndex _ (by simp) ?remoteKeyIndex ?aloneRemote)
    ?keysBelow ?mrUnused
  case mrIdentities =>
    intro parent parentMember identity
    rw [Entry.adjust_record]
    split
    · rename_i here
      simp [QpService.unrelateMr, here, and_comm, eq_comm]
    · rename_i elsewhere
      simp [Ne.symm elsewhere]
  case localKeyIndex =>
    intro parent parentMember entry
    rw [Entry.adjust_record]
    split
    · rename_i here
      have known := (consistent.localKeyIndex parent parentMember
        (mr.record.lkey, mr.identity)).mpr ⟨mr, List.mem_cons_self .., rfl, rfl, here.symm⟩
      simp only [QpService.unrelateMr, index_erase known, here, and_true]
    · rename_i elsewhere
      simp [Ne.symm elsewhere]
  case remoteKeyIndex =>
    intro parent parentMember entry
    rw [Entry.adjust_record]
    split
    · rename_i here
      have known := (consistent.remoteKeyIndex parent parentMember
        (mr.record.rkey, mr.identity)).mpr ⟨mr, List.mem_cons_self .., rfl, rfl, here.symm⟩
      simp only [QpService.unrelateMr, index_erase known, here, and_true]
    · rename_i elsewhere
      simp [Ne.symm elsewhere]
  case aloneIdentity =>
    rintro parent - identity ⟨same, -⟩ other otherMember ⟨otherSame, -⟩
    exact different other otherMember (otherSame.trans same.symm)
  case aloneLocal =>
    rintro parent - entry ⟨-, same, -⟩ other otherMember ⟨-, otherSame, -⟩
    exact different other otherMember (otherSame.trans same.symm)
  case aloneRemote =>
    rintro parent - entry ⟨-, same, -⟩ other otherMember ⟨-, otherSame, -⟩
    exact different other otherMember (otherSame.trans same.symm)
  case keysBelow =>
    exact fun other member => consistent.keysBelow other (List.mem_cons_of_mem _ member)
  case mrUnused =>
    exact fun other member => consistent.mrUnused other (List.mem_cons_of_mem _ member)

/-! ## Queue pairs -/

/-- Change the QP count of one PD. -/
def adjustQps (identity : Nat) (change : Nat → Nat) : Entry PdRecord → Entry PdRecord :=
  Entry.adjust identity fun pd => { pd with qpCount := change pd.qpCount }

/-- Change the references of the CQs that a QP uses, each once. -/
def adjustCqs (send receive : Nat) (change : Nat → Nat) (cq : Entry CqRecord) :
    Entry CqRecord :=
  if send = cq.identity ∨ receive = cq.identity then
    { cq with record := { cq.record with qpReferences := change cq.record.qpReferences } }
  else
    cq

@[simp] theorem adjustCqs_identity (send receive : Nat) (change : Nat → Nat)
    (cq : Entry CqRecord) : (adjustCqs send receive change cq).identity = cq.identity := by
  unfold adjustCqs
  split <;> rfl

@[simp] theorem adjustCqs_owner (send receive : Nat) (change : Nat → Nat)
    (cq : Entry CqRecord) : (adjustCqs send receive change cq).owner = cq.owner := by
  unfold adjustCqs
  split <;> rfl

@[simp] theorem adjustCqs_contextIdentity (send receive : Nat) (change : Nat → Nat)
    (cq : Entry CqRecord) :
    (adjustCqs send receive change cq).record.contextIdentity =
      cq.record.contextIdentity := by
  unfold adjustCqs
  split <;> rfl

/-- Changing what PDs and CQs record about QPs leaves the other relations alone. -/
theorem Consistent.withQps (consistent : graph.Consistent) {identity send receive : Nat}
    {qps : List (Entry QpRecord)} {index : Nat → Option Nat} {nextQpNum : Nat}
    {change : Nat → Nat}
    (qpPd : Parented (fun qp pd =>
      pd.identity = qp.record.pdIdentity ∧ pd.owner = qp.owner ∧
        pd.record.contextIdentity = qp.record.contextIdentity) graph.pds qps)
    (qpSendCq : Parented (fun qp cq =>
      cq.identity = qp.record.sendCqIdentity ∧ cq.owner = qp.owner ∧
        cq.record.contextIdentity = qp.record.contextIdentity) graph.cqs qps)
    (qpRecvCq : Parented (fun qp cq =>
      cq.identity = qp.record.recvCqIdentity ∧ cq.owner = qp.owner ∧
        cq.record.contextIdentity = qp.record.contextIdentity) graph.cqs qps)
    (qpCount : Counted (fun pd => pd.record.qpCount) namesPd
      (graph.pds.map (adjustQps identity change)) qps)
    (qpReferences : Counted (fun cq => cq.record.qpReferences) usesCq
      (graph.cqs.map (adjustCqs send receive change)) qps)
    (qpNumIndex : Exact
      (fun (index : Nat → Option Nat) (entry : Nat × Nat) => index entry.1 = some entry.2)
      (fun qp _ entry => qp.record.qpNum = entry.1 ∧ qp.identity = entry.2) [index] qps)
    (qpNumsBelow : nextQpNum = 0 ∨ ∀ qp ∈ qps, qp.record.qpNum < nextQpNum)
    (qpOwner : ∀ qp ∈ qps, qp.record.ownerSession = qp.owner) :
    Consistent { graph with
      pds := graph.pds.map (adjustQps identity change)
      cqs := graph.cqs.map (adjustCqs send receive change)
      qps := qps, qpNumIndex := index, nextQpNum := nextQpNum } := by
  have record : ∀ pd : Entry PdRecord, (adjustQps identity change pd).record =
      if pd.identity = identity then { pd.record with qpCount := change pd.record.qpCount }
      else pd.record := fun pd => Entry.adjust_record ..
  have sameIdentity : ∀ pd, (adjustQps identity change pd).identity = pd.identity :=
    Entry.adjust_identity _ _
  have sameOwner : ∀ pd, (adjustQps identity change pd).owner = pd.owner :=
    Entry.adjust_owner _ _
  have context : ∀ pd, (adjustQps identity change pd).record.contextIdentity =
      pd.record.contextIdentity := by
    intro pd
    rw [record]
    split <;> rfl
  refine { consistent with
    pdContext := consistent.pdContext.map_children (by simp [context, sameOwner])
    cqContext := consistent.cqContext.map_children (by simp)
    mrPd := consistent.mrPd.map_parents (by simp [context, sameIdentity, sameOwner])
    qpPd := qpPd.map_parents (by simp [context, sameIdentity, sameOwner])
    qpSendCq := qpSendCq.map_parents (by simp)
    qpRecvCq := qpRecvCq.map_parents (by simp)
    childCount := ?childCount
    qpCount := qpCount
    qpReferences := qpReferences
    mrIdentities := consistent.mrIdentities.map_parents ?_ (by simp [sameIdentity])
    localKeyIndex := consistent.localKeyIndex.map_parents ?_ (by simp [sameIdentity])
    remoteKeyIndex := consistent.remoteKeyIndex.map_parents ?_ (by simp [sameIdentity])
    qpNumIndex := qpNumIndex
    qpNumsBelow := qpNumsBelow
    qpOwner := qpOwner }
  case childCount =>
    have renamed : (graph.pds.map (adjustQps identity change)).map Sum.inl ++
        (graph.cqs.map (adjustCqs send receive change)).map Sum.inr =
        graph.children.map
          (Sum.map (adjustQps identity change) (adjustCqs send receive change)) := by
      simp [children, Function.comp_def]
    simp only [children]
    rw [renamed]
    refine consistent.childCount.map_children ?_
    intro child _ parent
    cases child with
    | inl pd => exact namesContext_congr (context pd)
    | inr cq => exact namesContext_congr (adjustCqs_contextIdentity _ _ _ cq)
  all_goals
    intro pd fact
    rw [record]
    split <;> rfl

theorem adjustQps_qpCount (identity : Nat) (change : Nat → Nat) (pd : Entry PdRecord) :
    (adjustQps identity change pd).record.qpCount =
      if pd.identity = identity then change pd.record.qpCount else pd.record.qpCount := by
  simp only [adjustQps, Entry.adjust_record]
  split <;> rfl

theorem adjustCqs_qpReferences (send receive : Nat) (change : Nat → Nat)
    (cq : Entry CqRecord) :
    (adjustCqs send receive change cq).record.qpReferences =
      if send = cq.identity ∨ receive = cq.identity then change cq.record.qpReferences
      else cq.record.qpReferences := by
  unfold adjustCqs
  split <;> rfl

theorem namesPd_adjustQps (identity : Nat) (change : Nat → Nat) (pd : Entry PdRecord)
    (qp : Entry QpRecord) : namesPd qp (adjustQps identity change pd) = namesPd qp pd := by
  simp [namesPd, adjustQps]

theorem usesCq_adjustCqs (send receive : Nat) (change : Nat → Nat) (cq : Entry CqRecord)
    (qp : Entry QpRecord) : usesCq qp (adjustCqs send receive change cq) = usesCq qp cq := by
  simp [usesCq]

theorem Consistent.addQp (consistent : graph.Consistent) (qp : Entry QpRecord)
    {pd : Entry PdRecord} {send receive : Entry CqRecord} {nextQpNum : Nat}
    (pdMember : pd ∈ graph.pds) (sendMember : send ∈ graph.cqs)
    (receiveMember : receive ∈ graph.cqs)
    (pdNamed : pd.identity = qp.record.pdIdentity ∧ pd.owner = qp.owner ∧
      pd.record.contextIdentity = qp.record.contextIdentity)
    (sendNamed : send.identity = qp.record.sendCqIdentity ∧ send.owner = qp.owner ∧
      send.record.contextIdentity = qp.record.contextIdentity)
    (receiveNamed : receive.identity = qp.record.recvCqIdentity ∧ receive.owner = qp.owner ∧
      receive.record.contextIdentity = qp.record.contextIdentity)
    (owner : qp.record.ownerSession = qp.owner)
    (free : graph.qpNumIndex qp.record.qpNum = none)
    (below : nextQpNum = 0 ∨
      qp.record.qpNum < nextQpNum ∧ ∀ other ∈ graph.qps, other.record.qpNum < nextQpNum) :
    Consistent { graph with
      pds := graph.pds.map (adjustQps qp.record.pdIdentity (· + 1))
      cqs := graph.cqs.map
        (adjustCqs qp.record.sendCqIdentity qp.record.recvCqIdentity (· + 1))
      qps := qp :: graph.qps
      qpNumIndex := Function.update graph.qpNumIndex qp.record.qpNum (some qp.identity)
      nextQpNum := nextQpNum } := by
  refine consistent.withQps (consistent.qpPd.cons pdMember pdNamed)
    (consistent.qpSendCq.cons sendMember sendNamed)
    (consistent.qpRecvCq.cons receiveMember receiveNamed)
    (consistent.qpCount.add_child qp _ (namesPd_adjustQps _ _) ?qpCount)
    (consistent.qpReferences.add_child qp _ (usesCq_adjustCqs _ _ _) ?qpReferences)
    ?qpNumIndex ?below ?owner
  case qpCount =>
    intro parent _
    rw [adjustQps_qpCount]
    by_cases named : parent.identity = qp.record.pdIdentity
    · simp [namesPd, named]
    · simp [namesPd, named, Ne.symm named]
  case qpReferences =>
    intro parent _
    rw [adjustCqs_qpReferences]
    by_cases used : qp.record.sendCqIdentity = parent.identity ∨
        qp.record.recvCqIdentity = parent.identity
    · simp [usesCq, used]
    · simp [usesCq, used]
  case qpNumIndex =>
    have added := consistent.qpNumIndex.add_child qp
      (fun index => Function.update index qp.record.qpNum (some qp.identity))
      (fun _ _ _ => Iff.rfl) (by
        intro index member entry
        rw [List.mem_singleton.mp member]
        exact index_insert free entry)
    exact added
  case below =>
    refine below.imp_right ?_
    rintro ⟨new, old⟩ other member
    rcases List.mem_cons.mp member with rfl | remaining
    · exact new
    · exact old other remaining
  case owner =>
    intro other member
    rcases List.mem_cons.mp member with rfl | old
    · exact owner
    · exact consistent.qpOwner other old

theorem Consistent.removeQp {qp : Entry QpRecord} {qps : List (Entry QpRecord)}
    (consistent : Consistent { graph with qps := qp :: qps })
    (alone : qp.identity ∉ qps.map Entry.identity) :
    Consistent { graph with
      pds := graph.pds.map (adjustQps qp.record.pdIdentity (· - 1))
      cqs := graph.cqs.map
        (adjustCqs qp.record.sendCqIdentity qp.record.recvCqIdentity (· - 1))
      qps := qps
      qpNumIndex := Function.update graph.qpNumIndex qp.record.qpNum none } := by
  have fewer := List.subset_cons_self qp qps
  refine consistent.withQps (consistent.qpPd.mono (List.Subset.refl _) fewer)
    (consistent.qpSendCq.mono (List.Subset.refl _) fewer)
    (consistent.qpRecvCq.mono (List.Subset.refl _) fewer)
    (Counted.drop_child qp consistent.qpCount _ (namesPd_adjustQps _ _) ?qpCount)
    (Counted.drop_child qp consistent.qpReferences _ (usesCq_adjustCqs _ _ _) ?qpReferences)
    ?qpNumIndex (consistent.qpNumsBelow.imp_right fun below other member =>
      below other (fewer member))
    (fun other member => consistent.qpOwner other (fewer member))
  case qpCount =>
    intro parent _
    rw [adjustQps_qpCount]
    by_cases named : parent.identity = qp.record.pdIdentity
    · simp [namesPd, named]
    · simp [namesPd, named, Ne.symm named]
  case qpReferences =>
    intro parent _
    rw [adjustCqs_qpReferences]
    by_cases used : qp.record.sendCqIdentity = parent.identity ∨
        qp.record.recvCqIdentity = parent.identity
    · simp [usesCq, used]
    · simp [usesCq, used]
  case qpNumIndex =>
    have known := (consistent.qpNumIndex _ (List.mem_singleton_self _)
      (qp.record.qpNum, qp.identity)).mpr ⟨qp, List.mem_cons_self .., rfl, rfl⟩
    have dropped := Exact.drop_child qp consistent.qpNumIndex
      (fun index => Function.update index qp.record.qpNum none)
      (fun _ _ _ => Iff.rfl) (by
        intro index member entry
        rw [List.mem_singleton.mp member]
        exact index_erase known entry) (by
        rintro index - entry ⟨-, same⟩ other otherMember ⟨-, otherSame⟩
        exact alone (List.mem_map.mpr ⟨other, otherMember, otherSame.trans same.symm⟩))
    exact dropped

/-- Two records of a QP with the same references, number and owner. -/
structure SameReferences (left right : QpRecord) : Prop where
  pdIdentity : left.pdIdentity = right.pdIdentity
  sendCqIdentity : left.sendCqIdentity = right.sendCqIdentity
  recvCqIdentity : left.recvCqIdentity = right.recvCqIdentity
  contextIdentity : left.contextIdentity = right.contextIdentity
  qpNum : left.qpNum = right.qpNum
  ownerSession : left.ownerSession = right.ownerSession

theorem Consistent.modifyQp (consistent : graph.Consistent) {identity : Nat}
    {update : QpRecord → QpRecord}
    (same : ∀ qp ∈ graph.qps, SameReferences (qp.adjust identity update).record qp.record) :
    Consistent { graph with qps := graph.qps.map (Entry.adjust identity update) } := by
  refine { consistent with
    qpPd := consistent.qpPd.map_children ?qpPd
    qpSendCq := consistent.qpSendCq.map_children ?qpSendCq
    qpRecvCq := consistent.qpRecvCq.map_children ?qpRecvCq
    qpCount := consistent.qpCount.map_children ?qpCount
    qpReferences := consistent.qpReferences.map_children ?qpReferences
    qpNumIndex := consistent.qpNumIndex.map_children ?qpNumIndex
    qpNumsBelow := ?qpNumsBelow
    qpOwner := ?qpOwner }
  case qpPd =>
    intro qp member pd linked
    rwa [(same qp member).pdIdentity, (same qp member).contextIdentity, Entry.adjust_owner]
  case qpSendCq =>
    intro qp member cq linked
    rwa [(same qp member).sendCqIdentity, (same qp member).contextIdentity,
      Entry.adjust_owner]
  case qpRecvCq =>
    intro qp member cq linked
    rwa [(same qp member).recvCqIdentity, (same qp member).contextIdentity,
      Entry.adjust_owner]
  case qpCount =>
    intro qp member pd
    unfold namesPd
    rw [(same qp member).pdIdentity]
  case qpReferences =>
    intro qp member cq
    unfold usesCq
    rw [(same qp member).sendCqIdentity, (same qp member).recvCqIdentity]
  case qpNumIndex =>
    intro qp member _ entry
    rw [(same qp member).qpNum, Entry.adjust_identity]
  case qpNumsBelow =>
    refine consistent.qpNumsBelow.imp_right fun below qp member => ?_
    obtain ⟨old, oldMember, rfl⟩ := List.mem_map.mp member
    rw [(same old oldMember).qpNum]
    exact below old oldMember
  case qpOwner =>
    intro qp member
    obtain ⟨old, oldMember, rfl⟩ := List.mem_map.mp member
    rw [(same old oldMember).ownerSession, Entry.adjust_owner]
    exact consistent.qpOwner old oldMember

/-! ## Sessions -/

section Sessions

variable (session : OwnerSessionId)

/-- The entries that stay when a session ends. -/
def remains {Record : Type} (entry : Entry Record) : Bool := entry.owner ≠ session

theorem remains_congr {Left Right : Type} {left : Entry Left} {right : Entry Right}
    (same : left.owner = right.owner) : remains session left = remains session right := by
  unfold remains
  rw [same]

/-- A child of a remaining parent remains, when it has the owner of its parent. -/
theorem remains_of_parent {Parent Child : Type} {parents : List (Entry Parent)}
    (nodup : (parents.map Entry.identity).Nodup) {parent linked : Entry Parent}
    {child : Entry Child} (member : parent ∈ parents.filter (remains session))
    (linkedMember : linked ∈ parents) (same : linked.identity = parent.identity)
    (owned : linked.owner = child.owner) : remains session child = true := by
  obtain ⟨parentMember, kept⟩ := List.mem_filter.mp member
  obtain rfl : linked = parent := List.inj_on_of_nodup_map nodup linkedMember parentMember same
  rw [← remains_congr session owned, kept]

/-- When a session ends, all its objects go and no object of another session
loses a parent or a child. -/
theorem Consistent.endSession (consistent : graph.Consistent) (distinct : graph.Distinct)
    {index : Nat → Option Nat}
    (indexed : ∀ number identity, index number = some identity ↔
      graph.qpNumIndex number = some identity ∧
        ∀ qp ∈ graph.qps, qp.owner = session → qp.record.qpNum ≠ number) :
    Consistent { graph with
      contexts := graph.contexts.filter (remains session)
      pds := graph.pds.filter (remains session)
      mrs := graph.mrs.filter (remains session)
      cqs := graph.cqs.filter (remains session)
      qps := graph.qps.filter (remains session)
      qpNumIndex := index } := by
  have ofMr : ∀ pd ∈ graph.pds.filter (remains session), ∀ mr ∈ graph.mrs,
      mr.record.pdIdentity = pd.identity → remains session mr = true := by
    intro pd member mr mrMember named
    obtain ⟨linked, linkedMember, same, owned, -⟩ := consistent.mrPd mr mrMember
    exact remains_of_parent session distinct.pds member linkedMember (same.trans named) owned
  constructor
  case pdContext =>
    exact consistent.pdContext.filter fun _ _ linked =>
      (remains_congr session linked.2).symm
  case cqContext =>
    exact consistent.cqContext.filter fun _ _ linked =>
      (remains_congr session linked.2).symm
  case mrPd =>
    exact consistent.mrPd.filter fun _ _ linked => (remains_congr session linked.2.1).symm
  case qpPd =>
    exact consistent.qpPd.filter fun _ _ linked => (remains_congr session linked.2.1).symm
  case qpSendCq =>
    exact consistent.qpSendCq.filter fun _ _ linked =>
      (remains_congr session linked.2.1).symm
  case qpRecvCq =>
    exact consistent.qpRecvCq.filter fun _ _ linked =>
      (remains_congr session linked.2.1).symm
  case childCount =>
    have split : (graph.pds.filter (remains session)).map Sum.inl ++
        (graph.cqs.filter (remains session)).map Sum.inr =
        graph.children.filter (Sum.elim (remains session) (remains session)) := by
      simp [children, List.filter_map, Function.comp_def]
    simp only [children]
    rw [split]
    refine consistent.childCount.filter (List.filter_subset_self _) ?_
    intro context member child childMember named
    have same := of_decide_eq_true named
    rcases mem_children.mp childMember with ⟨pd, pdMember, rfl⟩ | ⟨cq, cqMember, rfl⟩
    · obtain ⟨linked, linkedMember, identified, owned⟩ := consistent.pdContext pd pdMember
      exact remains_of_parent session distinct.contexts member linkedMember
        (identified.trans same) owned
    · obtain ⟨linked, linkedMember, identified, owned⟩ := consistent.cqContext cq cqMember
      exact remains_of_parent session distinct.contexts member linkedMember
        (identified.trans same) owned
  case qpCount =>
    refine consistent.qpCount.filter (List.filter_subset_self _) ?_
    intro pd member qp qpMember named
    obtain ⟨linked, linkedMember, identified, owned, -⟩ := consistent.qpPd qp qpMember
    exact remains_of_parent session distinct.pds member linkedMember
      (identified.trans (of_decide_eq_true named)) owned
  case qpReferences =>
    refine consistent.qpReferences.filter (List.filter_subset_self _) ?_
    intro cq member qp qpMember used
    rcases of_decide_eq_true used with send | receive
    · obtain ⟨linked, linkedMember, identified, owned, -⟩ := consistent.qpSendCq qp qpMember
      exact remains_of_parent session distinct.cqs member linkedMember
        (identified.trans send) owned
    · obtain ⟨linked, linkedMember, identified, owned, -⟩ := consistent.qpRecvCq qp qpMember
      exact remains_of_parent session distinct.cqs member linkedMember
        (identified.trans receive) owned
  case mrIdentities =>
    refine consistent.mrIdentities.filter (List.filter_subset_self _) ?_
    rintro pd member mr mrMember identity ⟨-, named⟩
    exact ofMr pd member mr mrMember named
  case localKeyIndex =>
    refine consistent.localKeyIndex.filter (List.filter_subset_self _) ?_
    rintro pd member mr mrMember entry ⟨-, -, named⟩
    exact ofMr pd member mr mrMember named
  case remoteKeyIndex =>
    refine consistent.remoteKeyIndex.filter (List.filter_subset_self _) ?_
    rintro pd member mr mrMember entry ⟨-, -, named⟩
    exact ofMr pd member mr mrMember named
  case qpNumIndex =>
    have numbers : ∀ entry : Nat × Nat, graph.qpNumIndex entry.1 = some entry.2 ↔
        ∃ qp ∈ graph.qps, qp.record.qpNum = entry.1 ∧ qp.identity = entry.2 :=
      consistent.qpNumIndex _ (List.mem_singleton_self _)
    intro current member entry
    rw [List.mem_singleton.mp member]
    simp only
    rw [indexed, numbers entry]
    constructor
    · rintro ⟨⟨qp, qpMember, number, identified⟩, others⟩
      refine ⟨qp, List.mem_filter.mpr ⟨qpMember, ?_⟩, number, identified⟩
      by_contra gone
      exact others qp qpMember (by simpa [remains] using gone) number
    · rintro ⟨qp, qpMember, number, identified⟩
      obtain ⟨old, kept⟩ := List.mem_filter.mp qpMember
      refine ⟨⟨qp, old, number, identified⟩, ?_⟩
      intro other otherMember owned clash
      have known := (numbers entry).mpr ⟨qp, old, number, identified⟩
      have otherKnown := (numbers (entry.1, other.identity)).mpr
        ⟨other, otherMember, clash, rfl⟩
      rw [known] at otherKnown
      have same : other = qp := List.inj_on_of_nodup_map distinct.qps otherMember old
        ((Option.some.inj otherKnown).symm.trans identified.symm)
      subst same
      simp [remains, owned] at kept
  case keysBelow =>
    exact fun mr member => consistent.keysBelow mr (List.mem_filter.mp member).1
  case qpNumsBelow =>
    exact consistent.qpNumsBelow.imp_right fun below qp member =>
      below qp (List.mem_filter.mp member).1
  case mrUnused =>
    exact fun mr member => consistent.mrUnused mr (List.mem_filter.mp member).1
  case qpOwner =>
    exact fun qp member => consistent.qpOwner qp (List.mem_filter.mp member).1

end Sessions

end ObjectGraph

end Ugdr.Control
