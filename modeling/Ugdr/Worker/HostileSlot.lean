import Ugdr.Worker.Wraparound

/-! # Reading a slot that its client rewrites

A send slot lives in memory that the client can write while `try_send` inspects
it, and `try_send` reads several words of it more than once. Each of its reads is
a value of its own here, chosen by the client.
-/

namespace Ugdr.Worker

open Ugdr.Queue Ugdr.Control
open Ugdr.Control.QpService (WorkerQpView)

/-! ## Reads of `try_send` -/

/-- The reads of one iteration of the loop over the entries, in their order. -/
structure SgeReads where
  /-- `send.sge_count` in the loop condition. -/
  loopCount : UInt32
  checkedLength : UInt32
  lkey : UInt32
  address : UInt64
  /-- `sges[index].length` as an argument of `resolve_lkey`. -/
  resolvedLength : UInt32
  addedLength : UInt32
  testedLength : UInt32
  pushedLength : UInt32
  countedLength : UInt32

/-- The arguments of `resolve_lkey`. -/
def SgeReads.resolution (reads : SgeReads) : SharedSge :=
  { address := reads.address.toNat
    length := reads.resolvedLength.toNat
    lkey := reads.lkey.toNat }

/-- The reads of one pass of `try_send` over the slot it peeked, but for the read of
`sge_count` that only sizes `source_segments`. -/
structure SlotReads where
  checkedCount : UInt32
  /-- Compared with `UGDR_WR_RDMA_WRITE`. -/
  firstOpcode : UInt32
  /-- Compared with `UGDR_WR_RDMA_WRITE_WITH_IMM`. -/
  secondOpcode : UInt32
  wrId : UInt64
  sendFlags : UInt32
  /-- Decides which operation the parent has. -/
  chosenOpcode : UInt32
  remoteAddress : UInt64
  rkey : UInt32
  immediateData : UInt32
  sges : Nat → SgeReads

/-- `Gathered` with the arguments of the `resolve_lkey` call of every pushed segment. -/
structure Harvest extends Gathered where
  resolutions : List SharedSge := []

/-- The body of the loop. Neither sum leaves its 64 bits: there are less than `2 ^ 32`
iterations, and each adds less than `2 ^ 32`. -/
def takeSge (resolve : SharedSge → Except Errno Nat) (payloadBytes : Nat) (reads : SgeReads)
    (harvest : Harvest) : Except Nat Harvest :=
  if 2 ^ 32 - 1 - reads.checkedLength.toNat < harvest.totalLength then
    .error wcLocLenErr
  else
    match resolve reads.resolution with
    | .error _ => .error wcLocProtErr
    | .ok address =>
        let totalLength := harvest.totalLength + reads.addedLength.toNat
        if reads.testedLength = 0 then
          .ok { harvest with totalLength }
        else
          .ok
            { totalLength
              segments := harvest.segments ++ [⟨address, reads.pushedLength.toNat⟩]
              payloadCount :=
                harvest.payloadCount +
                  (reads.countedLength.toNat + payloadBytes - 1) / payloadBytes
              resolutions := harvest.resolutions ++ [reads.resolution] }

/-- The iterations of the loop from `index` on: the entry each one reads, and what it
leaves. -/
def iterations (resolve : SharedSge → Except Errno Nat) (payloadBytes : Nat)
    (sges : Nat → SgeReads) (index : Nat) (harvest : Harvest) :
    List (Nat × Except Nat Harvest) :=
  if index < (sges index).loopCount.toNat then
    match takeSge resolve payloadBytes (sges index) harvest with
    | .error status => [(index, .error status)]
    | .ok next => (index, .ok next) :: iterations resolve payloadBytes sges (index + 1) next
  else
    []
termination_by 2 ^ 32 - index
decreasing_by
  have bound := (sges index).loopCount.toNat_lt
  omega

/-- What the loop leaves: the outcome of its last iteration. -/
def loopResult : Harvest → List (Nat × Except Nat Harvest) → Except Nat Harvest
  | start, [] => .ok start
  | _, (_, .error status) :: _ => .error status
  | _, (_, .ok next) :: rest => loopResult next rest

/-- The entries that `try_send` reads, and the parent's totals or the status of the
WQE's completion. -/
structure Inspection where
  iterations : List (Nat × Except Nat Harvest) := []
  result : Except Nat Harvest

def lkeyResolution (service : QpService) (view : WorkerQpView) (sge : SharedSge) :
    Except Errno Nat :=
  service.resolveLkey view.sessionId view.pdIdentity sge.lkey sge.address sge.length

/-- The checks of `try_send`, on the values it reads. -/
def inspectReads (service : QpService) (view : WorkerQpView) (payloadBytes : Nat)
    (reads : SlotReads) : Inspection :=
  if view.maxSendSge < reads.checkedCount.toNat then
    { result := .error wcLocLenErr }
  else if reads.firstOpcode.toNat ≠ wrRdmaWrite ∧
      reads.secondOpcode.toNat ≠ wrRdmaWriteWithImm then
    { result := .error wcLocQpOpErr }
  else
    let loop := iterations (lkeyResolution service view) payloadBytes reads.sges 0 {}
    { iterations := loop
      result :=
        match loopResult {} loop with
        | .error status => .error status
        | .ok harvest =>
            if 2 ^ 32 - 1 < harvest.payloadCount then .error wcLocLenErr else .ok harvest }

/-- The parent built from reads that passed the checks. -/
def pendingSendFrom (view : WorkerQpView) (requestId : Nat) (reads : SlotReads)
    (harvest : Harvest) : PendingSend :=
  { parentRequestId := requestId
    wrId := reads.wrId.toNat
    signaled := view.sqSigAll ≠ 0 ∨ reads.sendFlags.toNat &&& sendSignaled ≠ 0
    opcode :=
      if reads.chosenOpcode.toNat = wrRdmaWrite then .rdmaWrite else .rdmaWriteWithImmediate
    sourceQpNum := view.qpNum
    targetQpNum := view.peerQpNum
    remoteAddress := reads.remoteAddress.toNat
    rkey := reads.rkey.toNat
    immediateData := reads.immediateData.toNat
    totalLength := harvest.totalLength
    payloadCount := harvest.payloadCount
    sourceSegments := harvest.segments }

/-! ## What validation promises -/

/-- Totals of the loop that say what was resolved: each pushed segment has the length
of its resolution, and both sums are those of the pushed segments. -/
structure Harvest.Sound (resolve : SharedSge → Except Errno Nat) (payloadBytes : Nat)
    (harvest : Harvest) : Prop where
  resolved : List.Forall₂ (ResolvesTo resolve) harvest.resolutions harvest.segments
  total : harvest.totalLength = segmentLength harvest.segments
  fits : harvest.totalLength ≤ 2 ^ 32 - 1
  pieces : harvest.payloadCount = segmentPayloads payloadBytes harvest.segments

/-- Every entry read is one that the queue pair has, and the totals are sound after
every iteration. -/
def SoundThroughout (service : QpService) (view : WorkerQpView) (payloadBytes : Nat)
    (reads : SlotReads) : Prop :=
  ∀ iteration ∈ (inspectReads service view payloadBytes reads).iterations,
    iteration.1 < view.maxSendSge ∧
      ∀ harvest, iteration.2 = .ok harvest →
        harvest.Sound (lkeyResolution service view) payloadBytes

/-- Every entry read is one that the queue pair has, and a parent that results is cut
into as many datagrams as it announces, which read exactly the resolved segments. -/
structure Validated (service : QpService) (view : WorkerQpView) (payloadBytes requestId : Nat)
    (reads : SlotReads) : Prop where
  index_lt : ∀ iteration ∈ (inspectReads service view payloadBytes reads).iterations,
    iteration.1 < view.maxSendSge
  sound : ∀ harvest, (inspectReads service view payloadBytes reads).result = .ok harvest →
    harvest.Sound (lkeyResolution service view) payloadBytes
  cut : ∀ harvest, (inspectReads service view payloadBytes reads).result = .ok harvest →
    harvest.totalLength ≠ 0 →
    let parent := pendingSendFrom view requestId reads harvest
    let datagrams := parent.datagrams payloadBytes
    datagrams.length = parent.payloadCount ∧ PendingSend.Consecutive 0 0 datagrams ∧
      PendingSend.payloadLengths datagrams = parent.totalLength ∧
      PendingSend.sourceBytes datagrams = segmentBytes parent.sourceSegments

/-! ## Reads that agree -/

section Agreement

variable (resolve : SharedSge → Except Errno Nat) (payloadBytes : Nat) (sges : Nat → SgeReads)

/-- The sum of the lengths added before an iteration. -/
def addedBefore (index : Nat) : Nat :=
  ((List.range index).map fun earlier => (sges earlier).addedLength.toNat).sum

/-- An iteration passes both checks. -/
def Passes (index : Nat) : Prop :=
  addedBefore sges index + (sges index).checkedLength.toNat ≤ 2 ^ 32 - 1 ∧
    ∃ address, resolve (sges index).resolution = .ok address

/-- The loop gets to the test of `index`. -/
def Reaches : Nat → Prop
  | 0 => True
  | index + 1 => Reaches index ∧ index < (sges index).loopCount.toNat ∧ Passes resolve sges index

/-- The lengths used by an iteration are the length it resolved. An entry whose length
is zero when it is tested adds nothing. -/
def SgeReads.Agree (reads : SgeReads) : Prop :=
  if reads.testedLength = 0 then
    reads.addedLength = 0
  else
    reads.addedLength = reads.resolvedLength ∧ reads.pushedLength = reads.resolvedLength ∧
      (reads.countedLength.toNat + payloadBytes - 1) / payloadBytes =
        (reads.resolvedLength.toNat + payloadBytes - 1) / payloadBytes

/-- Every iteration is one that the queue pair has an entry for, and uses one length,
which still fits when it is added. -/
def SteadyFrom (limit start : Nat) : Prop :=
  ∀ index, start ≤ index → Reaches resolve sges index →
    index < (sges index).loopCount.toNat →
    index < limit ∧
      (Passes resolve sges index →
        (sges index).Agree payloadBytes ∧ addedBefore sges (index + 1) ≤ 2 ^ 32 - 1)

end Agreement

/-- The client leaves alone what matters: once the checks on the header have passed,
the count never exceeds the limit at a later test and every entry has one length. -/
def SlotReads.Steady (service : QpService) (view : WorkerQpView) (payloadBytes : Nat)
    (reads : SlotReads) : Prop :=
  reads.checkedCount.toNat ≤ view.maxSendSge →
    reads.firstOpcode.toNat = wrRdmaWrite ∨ reads.secondOpcode.toNat = wrRdmaWriteWithImm →
    SteadyFrom (lkeyResolution service view) payloadBytes reads.sges view.maxSendSge 0

section Loop

variable {resolve : SharedSge → Except Errno Nat} {payloadBytes : Nat}
  {sges : Nat → SgeReads}

theorem addedBefore_succ (index : Nat) :
    addedBefore sges (index + 1) =
      addedBefore sges index + (sges index).addedLength.toNat := by
  simp [addedBefore, List.range_succ]

theorem Reaches.before {index later : Nat} (reaches : Reaches resolve sges later)
    (earlier : index < later) : Reaches resolve sges (index + 1) := by
  induction later with
  | zero => exact absurd earlier (Nat.not_lt_zero _)
  | succ later induction =>
      rcases Nat.lt_succ_iff_lt_or_eq.mp earlier with before | rfl
      · exact induction reaches.1 before
      · exact reaches

/-- An iteration that fails is one that does not pass its checks. -/
theorem takeSge_error {index : Nat} {harvest : Harvest} {status : Nat}
    (sum : harvest.totalLength = addedBefore sges index)
    (failed : takeSge resolve payloadBytes (sges index) harvest = .error status) :
    ¬ Passes resolve sges index := by
  rintro ⟨room, address, resolved⟩
  have bound := (sges index).checkedLength.toNat_lt
  rw [takeSge, if_neg (by omega)] at failed
  simp only [resolved] at failed
  split at failed <;> cases failed

/-- The segments and their resolutions correspond after one more pair iff they did and
the new pair does. -/
theorem forall₂_concat {α β : Type} {relation : α → β → Prop} {left : List α} {right : List β}
    {first : α} {second : β} (before : List.Forall₂ relation left right) :
    List.Forall₂ relation (left ++ [first]) (right ++ [second]) ↔ relation first second := by
  constructor
  · intro after
    have last := List.forall₂_drop_append _ _ _ after
    rw [← before.length_eq, List.drop_left] at last
    exact (List.forall₂_cons.mp last).1
  · intro new
    exact List.rel_append before (.cons new .nil)

/-- An iteration that succeeds keeps sound totals sound exactly when its reads agree
and the sum still fits. -/
theorem takeSge_ok {index : Nat} {harvest next : Harvest}
    (sum : harvest.totalLength = addedBefore sges index)
    (sound : harvest.Sound resolve payloadBytes)
    (taken : takeSge resolve payloadBytes (sges index) harvest = .ok next) :
    Passes resolve sges index ∧ next.totalLength = addedBefore sges (index + 1) ∧
      (next.Sound resolve payloadBytes ↔
        (sges index).Agree payloadBytes ∧ addedBefore sges (index + 1) ≤ 2 ^ 32 - 1) := by
  have bound := (sges index).checkedLength.toNat_lt
  obtain room | room := Nat.lt_or_ge (2 ^ 32 - 1 - (sges index).checkedLength.toNat)
    harvest.totalLength
  · rw [takeSge, if_pos room] at taken
    cases taken
  rw [takeSge, if_neg (Nat.not_lt.mpr room)] at taken
  cases resolved : resolve (sges index).resolution with
  | error status =>
      simp only [resolved] at taken
      cases taken
  | ok address =>
  simp only [resolved] at taken
  have passes : Passes resolve sges index := ⟨by omega, address, resolved⟩
  have total := sound.total
  have pieces := sound.pieces
  rw [addedBefore_succ, ← sum]
  split at taken
  · rename_i empty
    injection taken with same
    subst same
    refine ⟨passes, rfl, ?_⟩
    rw [SgeReads.Agree, if_pos empty, ← UInt32.toNat_inj, UInt32.toNat_zero]
    constructor
    · intro after
      have afterTotal := after.total
      have afterFits := after.fits
      dsimp only at afterTotal afterFits
      omega
    · rintro ⟨nothing, fits⟩
      exact ⟨sound.resolved, by dsimp only; omega, fits, pieces⟩
  · rename_i nonempty
    injection taken with same
    subst same
    refine ⟨passes, rfl, ?_⟩
    rw [SgeReads.Agree, if_neg nonempty, ← UInt32.toNat_inj, ← UInt32.toNat_inj]
    have lengths : segmentLength (harvest.segments ++ [⟨address, (sges index).pushedLength.toNat⟩])
        = segmentLength harvest.segments + (sges index).pushedLength.toNat := by
      simp [segmentLength]
    have payloads : segmentPayloads payloadBytes
        (harvest.segments ++ [⟨address, (sges index).pushedLength.toNat⟩]) =
        segmentPayloads payloadBytes harvest.segments +
          ((sges index).pushedLength.toNat + payloadBytes - 1) / payloadBytes := by
      simp [segmentPayloads]
    constructor
    · intro after
      have matched : (sges index).pushedLength.toNat = (sges index).resolvedLength.toNat :=
        ((forall₂_concat sound.resolved).mp after.resolved).2
      have afterTotal := after.total
      have afterPieces := after.pieces
      dsimp only at afterTotal afterPieces
      rw [lengths] at afterTotal
      rw [payloads, matched] at afterPieces
      exact ⟨⟨by omega, matched, by omega⟩, after.fits⟩
    · rintro ⟨⟨added, pushed, counted⟩, fits⟩
      refine ⟨(forall₂_concat sound.resolved).mpr ⟨resolved, pushed⟩, ?_, fits, ?_⟩
      · rw [lengths]
        dsimp only
        omega
      · rw [payloads, pushed]
        dsimp only
        omega

/-- The totals are sound along the whole loop exactly when the reads are steady. The
induction follows the loop; its state is what the earlier iterations left. -/
theorem iterations_sound_iff {limit index : Nat} {harvest : Harvest}
    (reached : Reaches resolve sges index)
    (sum : harvest.totalLength = addedBefore sges index)
    (sound : harvest.Sound resolve payloadBytes) :
    (∀ iteration ∈ iterations resolve payloadBytes sges index harvest,
      iteration.1 < limit ∧
        ∀ after, iteration.2 = .ok after → after.Sound resolve payloadBytes) ↔
      SteadyFrom resolve payloadBytes sges limit index := by
  fun_induction iterations resolve payloadBytes sges index harvest with
  | case1 index harvest continues status failed =>
      have stuck := takeSge_error sum failed
      simp only [List.mem_singleton, forall_eq]
      constructor
      · rintro ⟨inside, -⟩ later after reachesLater -
        rcases Nat.lt_or_eq_of_le after with before | rfl
        · exact absurd (reachesLater.before before).2.2 stuck
        · exact ⟨inside, fun passes => absurd passes stuck⟩
      · intro steady
        exact ⟨(steady index (Nat.le_refl _) reached continues).1, nofun⟩
  | case2 index harvest continues next taken induction =>
      obtain ⟨passes, nextSum, soundIff⟩ := takeSge_ok sum sound taken
      have nextReached : Reaches resolve sges (index + 1) := ⟨reached, continues, passes⟩
      simp only [List.forall_mem_cons, Except.ok.injEq, forall_eq']
      constructor
      · rintro ⟨⟨inside, nextSound⟩, rest⟩ later after reachesLater continuesLater
        rcases Nat.lt_or_eq_of_le after with before | rfl
        · exact (induction nextReached nextSum nextSound).mp rest later before reachesLater
            continuesLater
        · exact ⟨inside, fun _ => soundIff.mp nextSound⟩
      · intro steady
        obtain ⟨inside, agree⟩ := steady index (Nat.le_refl _) reached continues
        have nextSound := soundIff.mpr (agree passes)
        refine ⟨⟨inside, nextSound⟩, (induction nextReached nextSum nextSound).mpr ?_⟩
        intro later after
        exact steady later (Nat.le_of_succ_le after)
  | case3 index harvest stops =>
      constructor
      · intro _ later after reachesLater continuesLater
        rcases Nat.lt_or_eq_of_le after with before | rfl
        · exact absurd (reachesLater.before before).2.1 stops
        · exact absurd continuesLater stops
      · intro _ iteration member
        exact absurd member List.not_mem_nil

/-- What the loop leaves is what it started with or what an iteration left. -/
theorem loopResult_mem {loop : List (Nat × Except Nat Harvest)} {start harvest : Harvest}
    (result : loopResult start loop = .ok harvest) :
    harvest = start ∨ ∃ index, (index, .ok harvest) ∈ loop := by
  fun_induction loopResult start loop with
  | case1 start =>
      injection result with same
      exact .inl same.symm
  | case2 => cases result
  | case3 start index next rest induction =>
      right
      rcases induction result with rfl | ⟨later, member⟩
      · exact ⟨index, List.mem_cons_self⟩
      · exact ⟨later, List.mem_cons_of_mem _ member⟩

end Loop

/-! ## A steady slot is validated -/

theorem LoopWorker.create_payloadBytes_pos (qpNum : Nat) (role : LoopWorkerRole)
    (payloadBytes : Nat) (observer : Bool) :
    0 < (LoopWorker.create qpNum role payloadBytes observer).payloadBytes := by
  simp only [LoopWorker.create]
  split
  · decide
  · omega

section Validation

variable {service : QpService} {view : WorkerQpView} {payloadBytes : Nat} {reads : SlotReads}

theorem Harvest.empty_sound (resolve : SharedSge → Except Errno Nat) (payloadBytes : Nat) :
    ({} : Harvest).Sound resolve payloadBytes :=
  ⟨.nil, rfl, Nat.zero_le _, rfl⟩

theorem soundThroughout_iff :
    SoundThroughout service view payloadBytes reads ↔
      reads.Steady service view payloadBytes := by
  unfold SoundThroughout SlotReads.Steady inspectReads
  obtain few | many := Nat.lt_or_ge view.maxSendSge reads.checkedCount.toNat
  · rw [if_pos few]
    exact ⟨fun _ fewer => absurd few (Nat.not_lt.mpr fewer),
      fun _ iteration member => absurd member List.not_mem_nil⟩
  rw [if_neg (Nat.not_lt.mpr many)]
  by_cases known : reads.firstOpcode.toNat ≠ wrRdmaWrite ∧
      reads.secondOpcode.toNat ≠ wrRdmaWriteWithImm
  · rw [if_pos known]
    exact ⟨fun _ _ supported => (supported.elim known.1 known.2).elim,
      fun _ iteration member => absurd member List.not_mem_nil⟩
  · rw [if_neg known]
    have supported : reads.firstOpcode.toNat = wrRdmaWrite ∨
        reads.secondOpcode.toNat = wrRdmaWriteWithImm := by
      by_contra neither
      exact known (not_or.mp neither)
    refine Iff.trans (iterations_sound_iff trivial rfl (Harvest.empty_sound _ _)) ?_
    exact ⟨fun steady _ _ => steady, fun steady => steady many supported⟩

/-- What is sound after every iteration is sound at the end of the loop. -/
theorem SoundThroughout.result (sound : SoundThroughout service view payloadBytes reads)
    {harvest : Harvest}
    (result : (inspectReads service view payloadBytes reads).result = .ok harvest) :
    harvest.Sound (lkeyResolution service view) payloadBytes := by
  unfold SoundThroughout inspectReads at sound
  unfold inspectReads at result
  split at result
  · cases result
  · split at result
    · cases result
    · rename_i few known
      rw [if_neg few, if_neg known] at sound
      dsimp only at result sound
      split at result
      · cases result
      · rename_i gathered
        split at result
        · cases result
        · injection result with same
          subst same
          rcases loopResult_mem gathered with rfl | ⟨index, member⟩
          · exact Harvest.empty_sound _ _
          · exact (sound _ member).2 _ rfl

/-- A parent with sound totals is one as `try_send` builds it from a slot at rest. -/
theorem Harvest.Sound.built (positive : 0 < payloadBytes) {harvest : Harvest}
    (sound : harvest.Sound (lkeyResolution service view) payloadBytes) (requestId : Nat) :
    (pendingSendFrom view requestId reads harvest).Built payloadBytes := by
  refine .of_segments positive rfl rfl rfl rfl rfl ?_ sound.pieces sound.total
    (Nat.lt_of_le_of_lt sound.fits (by decide))
  intro segment member
  obtain ⟨sge, -, resolved, length⟩ := exists_mem_of_forall₂ sound.resolved segment member
  rw [length]
  exact Nat.pos_of_ne_zero (resolveKey_length_ne_zero resolved)

theorem SlotReads.Steady.validated (positive : 0 < payloadBytes)
    (steady : reads.Steady service view payloadBytes) (requestId : Nat) :
    Validated service view payloadBytes requestId reads := by
  have sound := soundThroughout_iff.mpr steady
  refine ⟨fun iteration member => (sound iteration member).1, fun harvest => sound.result, ?_⟩
  intro harvest result nonzero
  exact ((sound.result result).built positive requestId).split nonzero

end Validation

/-! ## A slot at rest -/

/-- All reads see the contents of one WQE. -/
structure SlotReads.Stable (reads : SlotReads) (wqe : SendWqe) : Prop where
  checkedCount : reads.checkedCount.toNat = wqe.header.sgeCount
  firstOpcode : reads.firstOpcode.toNat = wqe.header.opcode
  secondOpcode : reads.secondOpcode.toNat = wqe.header.opcode
  wrId : reads.wrId.toNat = wqe.header.wrId
  sendFlags : reads.sendFlags.toNat = wqe.header.sendFlags
  chosenOpcode : reads.chosenOpcode.toNat = wqe.header.opcode
  remoteAddress : reads.remoteAddress.toNat = wqe.header.remoteAddress
  rkey : reads.rkey.toNat = wqe.header.rkey
  immediateData : reads.immediateData.toNat = wqe.header.immediateData
  loopCount : ∀ index, (reads.sges index).loopCount.toNat = wqe.header.sgeCount
  resolution : ∀ index, (reads.sges index).resolution = wqe.sges index
  checkedLength : ∀ index, (reads.sges index).checkedLength = (reads.sges index).resolvedLength
  addedLength : ∀ index, (reads.sges index).addedLength = (reads.sges index).resolvedLength
  testedLength : ∀ index, (reads.sges index).testedLength = (reads.sges index).resolvedLength
  pushedLength : ∀ index, (reads.sges index).pushedLength = (reads.sges index).resolvedLength
  countedLength : ∀ index, (reads.sges index).countedLength = (reads.sges index).resolvedLength

section Stable

variable {reads : SlotReads} {wqe : SendWqe} (stable : reads.Stable wqe)

include stable

theorem SlotReads.Stable.resolvedLength (index : Nat) :
    (reads.sges index).resolvedLength.toNat = (wqe.sges index).length :=
  congrArg SharedSge.length (stable.resolution index)

/-- One iteration over a slot at rest is one step of `gather`. -/
theorem SlotReads.Stable.takeSge_eq (resolve : SharedSge → Except Errno Nat)
    (payloadBytes index : Nat) (harvest : Harvest) :
    takeSge resolve payloadBytes (reads.sges index) harvest =
      if 2 ^ 32 - 1 - (wqe.sges index).length < harvest.totalLength then
        .error wcLocLenErr
      else
        match resolve (wqe.sges index) with
        | .error _ => .error wcLocProtErr
        | .ok address =>
            .ok
              { toGathered :=
                  harvest.toGathered.add payloadBytes address (wqe.sges index).length
                resolutions :=
                  if (wqe.sges index).length = 0 then harvest.resolutions
                  else harvest.resolutions ++ [wqe.sges index] } := by
  have length := stable.resolvedLength index
  rw [takeSge, stable.checkedLength, stable.addedLength, stable.testedLength,
    stable.pushedLength, stable.countedLength, stable.resolution, length]
  have zero : (reads.sges index).resolvedLength = 0 ↔ (wqe.sges index).length = 0 := by
    rw [← length, ← UInt32.toNat_inj, UInt32.toNat_zero]
  split
  · rfl
  · cases resolve (wqe.sges index) with
    | error status => rfl
    | ok address =>
        simp only [zero, Gathered.add]
        split <;> rfl

theorem SlotReads.Stable.loopResult_eq (resolve : SharedSge → Except Errno Nat)
    (payloadBytes index : Nat) (harvest : Harvest) :
    (loopResult harvest (iterations resolve payloadBytes reads.sges index harvest)).map
        Harvest.toGathered =
      gather resolve payloadBytes harvest.toGathered
        ((List.range' index (wqe.header.sgeCount - index)).map wqe.sges) := by
  have taken := stable.takeSge_eq resolve payloadBytes
  have count := stable.loopCount
  fun_induction iterations resolve payloadBytes reads.sges index harvest with
  | case1 index harvest continues status failed =>
      rw [count] at continues
      obtain ⟨rest, more⟩ := Nat.exists_eq_add_of_lt continues
      rw [show wqe.header.sgeCount - index = rest + 1 by omega, List.range'_succ, List.map_cons,
        gather]
      rw [taken] at failed
      split at failed
      · rename_i exceeds
        rw [if_pos exceeds]
        injection failed with same
        rw [same]
        rfl
      · rename_i room
        rw [if_neg room]
        cases resolved : resolve (wqe.sges index) with
        | error _ =>
            simp only [resolved] at failed ⊢
            injection failed with same
            rw [same]
            rfl
        | ok address =>
            simp only [resolved] at failed
            cases failed
  | case2 index harvest continues next passed induction =>
      rw [count] at continues
      obtain ⟨rest, more⟩ := Nat.exists_eq_add_of_lt continues
      rw [show wqe.header.sgeCount - index = rest + 1 by omega, List.range'_succ, List.map_cons,
        gather]
      rw [show wqe.header.sgeCount - (index + 1) = rest by omega] at induction
      rw [taken] at passed
      split at passed
      · cases passed
      · rename_i room
        rw [if_neg room]
        cases resolved : resolve (wqe.sges index) with
        | error _ =>
            simp only [resolved] at passed
            cases passed
        | ok address =>
            simp only [resolved] at passed
            injection passed with same
            rw [loopResult, induction, ← same]
  | case3 index harvest stops =>
      rw [count] at stops
      rw [show wqe.header.sgeCount - index = 0 by omega]
      rfl

/-- On a slot at rest the reads of `try_send` give what `inspectSend` says. -/
theorem SlotReads.Stable.inspectReads_eq (service : QpService) (view : WorkerQpView)
    (payloadBytes : Nat) :
    (inspectReads service view payloadBytes reads).result.map Harvest.toGathered =
      inspectSend service view payloadBytes wqe := by
  have loop := stable.loopResult_eq (lkeyResolution service view) payloadBytes 0 {}
  rw [Nat.sub_zero, ← List.range_eq_range'] at loop
  rw [inspectReads, inspectSend, stable.checkedCount, stable.firstOpcode, stable.secondOpcode]
  split
  · rfl
  split
  · rfl
  have gathered : gather (fun sge => service.resolveLkey view.sessionId view.pdIdentity sge.lkey
      sge.address sge.length) payloadBytes {} wqe.sgeList = _ := loop.symm
  rw [gathered]
  dsimp only
  cases loopResult {} (iterations (lkeyResolution service view) payloadBytes reads.sges 0 {}) with
  | error status => rfl
  | ok harvest =>
      dsimp only
      by_cases large : 2 ^ 32 - 1 < harvest.payloadCount
      · rw [if_pos large]
        exact (if_pos large).symm
      · rw [if_neg large]
        exact (if_neg large).symm

/-- The parent is the one built from the WQE. -/
theorem SlotReads.Stable.pendingSendFrom_eq (view : WorkerQpView) (requestId : Nat)
    (harvest : Harvest) :
    pendingSendFrom view requestId reads harvest =
      pendingSendOf view requestId wqe harvest.toGathered := by
  simp only [pendingSendFrom, pendingSendOf, stable.wrId, stable.sendFlags, stable.chosenOpcode,
    stable.remoteAddress, stable.rkey, stable.immediateData]

/-- A slot at rest is steady: one count is tested and one length used. -/
theorem SlotReads.Stable.steady (service : QpService) (view : WorkerQpView)
    (payloadBytes : Nat) : reads.Steady service view payloadBytes := by
  intro few _ index _ _ continues
  rw [stable.checkedCount] at few
  rw [stable.loopCount] at continues
  refine ⟨Nat.lt_of_lt_of_le continues few, ?_⟩
  rintro ⟨room, address, resolved⟩
  constructor
  · rw [SgeReads.Agree, if_neg, stable.addedLength, stable.pushedLength, stable.countedLength]
    · exact ⟨rfl, rfl, rfl⟩
    · rw [stable.testedLength, ← UInt32.toNat_inj, UInt32.toNat_zero]
      exact resolveKey_length_ne_zero resolved
  · rwa [addedBefore_succ, stable.addedLength, ← stable.checkedLength]

end Stable

/-! ## Validation against the client -/

/-- For every choice of the values that `try_send` reads: the entries read exist and
the totals are sound after every iteration exactly when the reads are steady, and
then the parent is validated. -/
theorem slot_validated_when_steady (service : QpService) (view : WorkerQpView)
    (qpNum payloadBytes : Nat) (observer : Bool) (requestId : Nat) (reads : SlotReads) :
    let worker := LoopWorker.create qpNum .requester payloadBytes observer
    (SoundThroughout service view worker.payloadBytes reads ↔
      reads.Steady service view worker.payloadBytes) ∧
    (reads.Steady service view worker.payloadBytes →
      Validated service view worker.payloadBytes requestId reads) := by
  intro worker
  have positive := LoopWorker.create_payloadBytes_pos qpNum .requester payloadBytes observer
  exact ⟨soundThroughout_iff, fun steady => steady.validated positive requestId⟩

/-- One entry of 8 bytes when it is resolved, added and counted, of 4096 when it is
pushed. -/
def growingSge (loopCount : UInt32) : SgeReads where
  loopCount
  checkedLength := 8
  lkey := 1
  address := 4096
  resolvedLength := 8
  addedLength := 8
  testedLength := 8
  pushedLength := 4096
  countedLength := 8

/-- The count is 1 when it is checked and 5 when the loop tests it. -/
def growingSlot : SlotReads where
  checkedCount := 1
  firstOpcode := UInt32.ofNat wrRdmaWrite
  secondOpcode := UInt32.ofNat wrRdmaWrite
  wrId := 0
  sendFlags := 0
  chosenOpcode := UInt32.ofNat wrRdmaWrite
  remoteAddress := 4096
  rkey := 2
  immediateData := 0
  sges := fun _ => growingSge 5

/-- What `count` iterations over that slot leave. -/
def growingHarvest (count : Nat) : Harvest where
  totalLength := 8 * count
  segments := List.replicate count ⟨8192, 4096⟩
  payloadCount := count
  resolutions := List.replicate count ⟨4096, 8, 1⟩

theorem takeSge_growing {count : Nat} (few : count < 5) :
    takeSge (lkeyResolution Loopback.service Loopback.requesterView) 8 (growingSge 5)
      (growingHarvest count) = .ok (growingHarvest (count + 1)) := by
  have resolved : lkeyResolution Loopback.service Loopback.requesterView
      (growingSge 5).resolution = .ok 8192 := rfl
  have resolution : (growingSge 5).resolution = ⟨4096, 8, 1⟩ := rfl
  rw [takeSge, if_neg (by simp [growingHarvest, growingSge]; omega), resolved, resolution]
  simp [growingHarvest, growingSge, List.replicate_succ', Nat.mul_add]

theorem iterations_growing (count index : Nat) (last : index + count = 5) :
    iterations (lkeyResolution Loopback.service Loopback.requesterView) 8 growingSlot.sges index
        (growingHarvest index) =
      (List.range' index count).map fun index => (index, .ok (growingHarvest (index + 1))) := by
  induction count generalizing index with
  | zero =>
      rw [iterations, if_neg (by simp [growingSlot, growingSge, ← last])]
      rfl
  | succ count induction =>
      have few : index < 5 := by omega
      have taken := takeSge_growing few
      rw [iterations, if_pos (by simp [growingSlot, growingSge]; omega)]
      simp only [show growingSlot.sges index = growingSge 5 from rfl, taken]
      rw [induction (index + 1) (by omega), List.range'_succ, List.map_cons]

theorem inspectReads_growing :
    inspectReads Loopback.service Loopback.requesterView 8 growingSlot =
      { iterations := (List.range' 0 5).map fun index => (index, .ok (growingHarvest (index + 1)))
        result := .ok (growingHarvest 5) } := by
  have loop := iterations_growing 5 0 rfl
  rw [show growingHarvest 0 = {} from rfl] at loop
  rw [inspectReads, if_neg (by decide), if_neg (by decide), loop]
  rfl

/-- The queue pair allows four entries and the region has 64 bytes, but a fifth entry
is read and segments of 4096 bytes are pushed. -/
theorem growingSlot_defeats_validation :
    Loopback.service.Reachable ∧
      Loopback.service.workerQpView 1 = .ok Loopback.requesterView ∧
      (∃ harvest, (inspectReads Loopback.service Loopback.requesterView 8 growingSlot).result =
        .ok harvest ∧ (⟨8192, 4096⟩ : SourceSegment) ∈ harvest.segments) ∧
      ¬ Validated Loopback.service Loopback.requesterView 8 1 growingSlot := by
  refine ⟨Loopback.service_reachable, rfl, ⟨growingHarvest 5, ?_, ?_⟩, ?_⟩
  · rw [inspectReads_growing]
  · exact List.mem_replicate.mpr ⟨by decide, rfl⟩
  · intro validated
    have inside := validated.index_lt (4, .ok (growingHarvest 5))
      (by rw [inspectReads_growing]; exact List.mem_map.mpr ⟨4, by decide, rfl⟩)
    exact absurd inside (by decide)

end Ugdr.Worker
