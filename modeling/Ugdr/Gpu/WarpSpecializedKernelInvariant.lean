import Ugdr.Gpu.WarpSpecializedKernel

/-! # What the warps of the warp-specialised kernel know

Which tasks the ingress warp has handed over and the egress warp has collected is read off what
the two do next. A claimed task is taken, copied and answered as far as the copy warp that holds
it has come; the claims of different warps have no task in common.
-/

namespace Ugdr.Gpu.WarpSpecializedKernel

open Machine Sequenced WarpSpecialized

theorem Shape.depthPos (shape : Shape) : 0 < shape.sharedQueueDepth :=
  Nat.zero_lt_of_lt shape.depthBounds.1

/-! ## Progress -/

namespace Ingress

/-- The tasks that the ingress warp has handed over. -/
def Handed (ingress : Ingress) (index : Nat) : Prop :=
  match ingress.phase with
  | .fetch _ | .storeDone | .stopped => index < ingress.taskHead
  | .wave taskCount _ lanes | .publish taskCount _ lanes =>
      index < ingress.taskHead ∨
        index < ingress.taskHead + taskCount ∧ lanes (index - ingress.taskHead) = .done

/-- The tasks that it has made known to the copy warps. -/
def published (ingress : Ingress) : Nat :=
  match ingress.phase with
  | .fetch _ | .storeDone | .stopped => ingress.taskHead
  | .wave _ waveBase _ | .publish _ waveBase _ => ingress.taskHead + waveBase

end Ingress

namespace CopyPhase

/-- Whether a copy warp works on a task. -/
def working : CopyPhase → Bool
  | .loadClaim | .loadPublish _ | .loadDone _ _ | .claim _ _ | .stopped => false
  | _ => true

/-- Whether it has given back the slot of the task, as a number. -/
def taken : CopyPhase → Nat
  | .waitCompletion _ | .writeCompletion _ | .storeCompletion => 1
  | _ => 0

/-- Whether it has copied the task, as a number. -/
def copied : CopyPhase → Nat
  | .storeTask _ | .waitCompletion _ | .writeCompletion _ | .storeCompletion => 1
  | _ => 0

end CopyPhase

namespace CopyWarp

/-- The first task that a copy warp has not answered. -/
def answeredTo (warp : CopyWarp) : Nat :=
  warp.taskBase + warp.batchIndex

/-- The first task that it has not given the slot back of. -/
def takenTo (warp : CopyWarp) : Nat :=
  warp.answeredTo + warp.phase.taken

/-- The first task that it has not copied. -/
def copiedTo (warp : CopyWarp) : Nat :=
  warp.answeredTo + warp.phase.copied

/-- The end of its claim. -/
def limit (warp : CopyWarp) : Nat :=
  warp.taskBase + warp.taskCount

/-- The tasks that a copy warp still has to answer. -/
def Holds (warp : CopyWarp) (index : Nat) : Prop :=
  warp.answeredTo ≤ index ∧ index < warp.limit

theorem answeredTo_le_takenTo (warp : CopyWarp) : warp.answeredTo ≤ warp.takenTo :=
  Nat.le_add_right ..

theorem takenTo_le_copiedTo (warp : CopyWarp) : warp.takenTo ≤ warp.copiedTo := by
  apply Nat.add_le_add_left
  cases warp.phase with
  | storeTask task => exact Nat.zero_le 1
  | _ => exact Nat.le_refl _

end CopyWarp

namespace Egress

/-- The completions whose slots the egress warp has given back. -/
def Freed (egress : Egress) (index : Nat) : Prop :=
  match egress.phase with
  | .fetch _ | .stopped => index < egress.completionHead
  | .collect completionCount _ lanes | .free completionCount _ lanes =>
      index < egress.completionHead ∨
        index < egress.completionHead + completionCount ∧
          (lanes (index - egress.completionHead)).isFreed = true
  | .write completionCount _ | .storeTail completionCount =>
      index < egress.completionHead + completionCount

end Egress

namespace System

variable {shape : Shape}

/-- The claimed tasks that the copy warps have got past. -/
def Past (bound : CopyWarp → Nat) (system : System shape) (index : Nat) : Prop :=
  index < system.control.taskClaim ∧ ∀ warp,
    index < bound (system.copyWarps warp) ∨ (system.copyWarps warp).limit ≤ index

/-- The task of an index. -/
def taskAt (system : System shape) (index : Nat) : CopyTask :=
  system.queue.taskAt index

/-! ## The invariant -/

def LaneFits (system : System shape) (taskCount waveBase lane : Nat) : LoadLane → Prop
  | .read => waveBase ≤ lane
  | .wait task => waveBase ≤ lane ∧ task = system.taskAt (system.ingress.taskHead + lane)
  | .write task =>
      (waveBase ≤ lane ∧ lane < waveEnd shape taskCount waveBase) ∧
        Open shape.sharedQueueDepth system.sharedTasks (system.ingress.taskHead + lane) ∧
          task = system.taskAt (system.ingress.taskHead + lane)
  | .store =>
      (waveBase ≤ lane ∧ lane < waveEnd shape taskCount waveBase) ∧
        Open shape.sharedQueueDepth system.sharedTasks (system.ingress.taskHead + lane) ∧
          (system.sharedTasks ((system.ingress.taskHead + lane) % shape.sharedQueueDepth)).value =
            system.taskAt (system.ingress.taskHead + lane)
  | .done => lane < waveEnd shape taskCount waveBase

/-- The tasks of a batch are published. -/
structure BatchFits (system : System shape) (head count waveBase : Nat) : Prop where
  few : count ≤ warpSpecializedMetaBatch
  below : head + count ≤ system.queue.control.taskTail
  inside : waveBase < count

structure IngressFits (system : System shape) : Prop where
  head : system.ingress.taskHead ≤ system.queue.control.taskTail
  done : system.control.ingressDone ≠ 0 → system.ingress.phase = .stopped
  phase : match system.ingress.phase with
    | .fetch fetch => fetch = .loadFinalTail → system.queue.control.stopRequested ≠ 0
    | .wave taskCount waveBase lanes =>
        system.BatchFits system.ingress.taskHead taskCount waveBase ∧
          ∀ lane < taskCount, system.LaneFits taskCount waveBase lane (lanes lane)
    | .publish taskCount waveBase lanes =>
        system.BatchFits system.ingress.taskHead taskCount waveBase ∧
          ∀ lane < taskCount, system.LaneFits taskCount waveBase lane (lanes lane) ∧
            (lane < waveEnd shape taskCount waveBase → lanes lane = .done) ∧
              lanes lane ≠ .read
    | .storeDone | .stopped => system.queue.control.stopRequested ≠ 0 ∧
        system.queue.control.taskTail ≤ system.ingress.taskHead

def PhaseFits (system : System shape) (index : Nat) : CopyPhase → Prop
  | .loadClaim | .waitTask => True
  | .loadPublish taskClaim => taskClaim ≤ system.control.taskClaim
  | .loadDone taskClaim taskPublish =>
      taskPublish ≤ taskClaim ∧ taskClaim ≤ system.control.taskClaim ∧
        taskPublish ≤ system.control.taskPublish
  | .claim taskClaim taskCount =>
      0 < taskCount ∧ taskClaim + taskCount ≤ system.control.taskPublish
  | .readTask => Full shape.sharedQueueDepth system.sharedTasks index
  | .copy task | .storeTask task =>
      Full shape.sharedQueueDepth system.sharedTasks index ∧ task = system.taskAt index
  | .waitCompletion task => task = system.taskAt index
  | .writeCompletion task =>
      Open shape.sharedQueueDepth system.sharedCompletions index ∧ task = system.taskAt index
  | .storeCompletion =>
      Open shape.sharedQueueDepth system.sharedCompletions index ∧
        (system.sharedCompletions (index % shape.sharedQueueDepth)).value =
          completionOf (system.taskAt index)
  | .stopped => system.control.ingressDone ≠ 0

structure WarpFits (system : System shape) (warp : Fin shape.copyWarps) : Prop where
  busy : (system.copyWarps warp).phase.working = true →
    (system.copyWarps warp).batchIndex < (system.copyWarps warp).taskCount
  idle : (system.copyWarps warp).phase.working = false →
    (system.copyWarps warp).batchIndex = (system.copyWarps warp).taskCount
  within : (system.copyWarps warp).limit ≤ system.control.taskClaim
  phase : system.PhaseFits (system.copyWarps warp).answeredTo (system.copyWarps warp).phase

def CollectFits (system : System shape) (completionCount waveBase lane : Nat) :
    CollectLane → Prop
  | .wait => waveBase ≤ lane
  | .read =>
      (waveBase ≤ lane ∧ lane < waveEnd shape completionCount waveBase) ∧
        Full shape.sharedQueueDepth system.sharedCompletions (system.egress.completionHead + lane)
  | .hold completion =>
      (waveBase ≤ lane ∧ lane < waveEnd shape completionCount waveBase) ∧
        Full shape.sharedQueueDepth system.sharedCompletions
            (system.egress.completionHead + lane) ∧
          completion = completionOf (system.taskAt (system.egress.completionHead + lane))
  | .freed completion =>
      lane < waveEnd shape completionCount waveBase ∧
        completion = completionOf (system.taskAt (system.egress.completionHead + lane))
  | .written => False

def WriteFits (system : System shape) (index : Nat) : CollectLane → Prop
  | .freed completion => completion = completionOf (system.taskAt index)
  | .written => system.queue.Shows shape.capacity index
  | _ => False

structure EgressFits (system : System shape) : Prop where
  head : system.egress.completionHead ≤ system.queue.control.taskTail
  published : system.queue.control.completionTail = system.egress.completionHead
  phase : match system.egress.phase with
    | .fetch fetch => fetch = .loadFinalTail → system.queue.control.stopRequested ≠ 0
    | .collect completionCount waveBase lanes =>
        system.BatchFits system.egress.completionHead completionCount waveBase ∧
          ∀ lane < completionCount,
            system.CollectFits completionCount waveBase lane (lanes lane) ∧
              ((lanes lane).isFreed = true → lane < waveBase)
    | .free completionCount waveBase lanes =>
        system.BatchFits system.egress.completionHead completionCount waveBase ∧
          ∀ lane < completionCount,
            system.CollectFits completionCount waveBase lane (lanes lane) ∧
              (lane < waveEnd shape completionCount waveBase → (lanes lane).isFreed = true ∨
                (lanes lane).isHold = true)
    | .write completionCount lanes =>
        system.BatchFits system.egress.completionHead completionCount 0 ∧
          ∀ lane < completionCount,
            system.WriteFits (system.egress.completionHead + lane) (lanes lane)
    | .storeTail completionCount =>
        system.BatchFits system.egress.completionHead completionCount 0 ∧
          ∀ lane < completionCount,
            system.queue.Shows shape.capacity (system.egress.completionHead + lane)
    | .stopped => system.queue.control.stopRequested ≠ 0 ∧
        system.queue.control.taskTail ≤ system.egress.completionHead

structure Ledger (system : System shape) : Prop where
  once : (system.copied.map CopyRecord.index).Nodup
  sound : ∀ copy ∈ system.copied, system.queue.submitted[copy.index]? = some copy.task
  exact : ∀ index, index ∈ system.copied.map CopyRecord.index ↔
    Past CopyWarp.copiedTo system index

structure Invariant (system : System shape) : Prop where
  queue : system.queue.Invariant shape.capacity
  tasks : Channel shape.sharedQueueDepth system.sharedTasks system.taskAt
  completions : Channel shape.sharedQueueDepth system.sharedCompletions
    fun index => completionOf (system.taskAt index)
  handed : ∀ index, Filled shape.sharedQueueDepth system.sharedTasks index ↔
    system.ingress.Handed index
  taken : ∀ index, Taken shape.sharedQueueDepth system.sharedTasks index ↔
    Past CopyWarp.takenTo system index
  answered : ∀ index, Filled shape.sharedQueueDepth system.sharedCompletions index ↔
    Past CopyWarp.answeredTo system index
  freed : ∀ index, Taken shape.sharedQueueDepth system.sharedCompletions index ↔
    system.egress.Freed index
  claimed : system.control.taskClaim ≤ system.control.taskPublish
  published : system.control.taskPublish = system.ingress.published
  /-- No task is claimed by two warps. -/
  apart : ∀ warp other, other ≠ warp → ∀ index, (system.copyWarps warp).Holds index →
    ¬(system.copyWarps other).Holds index
  ingress : system.IngressFits
  warps : ∀ warp, system.WarpFits warp
  egress : system.EgressFits
  ledger : system.Ledger

theorem initial_invariant : Invariant ({} : System shape) where
  queue := Queue.initial_invariant shape.capacity
  tasks := initial_channel _ _
  completions := initial_channel _ _
  handed := fun _ => iff_of_false (not_filled_initial _) (Nat.not_lt_zero _)
  taken := fun _ => iff_of_false (not_taken_initial _ shape.depthPos)
    fun past => Nat.not_lt_zero _ past.1
  answered := fun _ => iff_of_false (not_filled_initial _) fun past => Nat.not_lt_zero _ past.1
  freed := fun _ => iff_of_false (not_taken_initial _ shape.depthPos) (Nat.not_lt_zero _)
  claimed := Nat.le_refl 0
  published := rfl
  apart := fun _ _ _ _ holds => absurd holds.2 (Nat.not_lt_zero _)
  ingress := ⟨Nat.le_refl 0, fun done => absurd rfl done, fun final => by cases final⟩
  warps := fun _ => ⟨fun working => absurd working Bool.false_ne_true, fun _ => rfl,
    Nat.le_refl 0, trivial⟩
  egress := ⟨Nat.le_refl 0, rfl, fun final => by cases final⟩
  ledger := ⟨List.nodup_nil, List.forall_mem_nil _, fun _ =>
    iff_of_false List.not_mem_nil fun past => Nat.not_lt_zero _ past.1⟩

/-! ## Slots -/

theorem sharedSlot_eq (shape : Shape) (index : Nat) :
    sharedSlot shape index = index % shape.sharedQueueDepth :=
  and_mask shape.depthPower index

theorem waveEnd_le (shape : Shape) (count waveBase : Nat) :
    waveEnd shape count waveBase ≤ count := by
  unfold waveEnd
  split_ifs <;> omega

/-- A wave has no more lanes than there are slots. -/
theorem waveEnd_near (shape : Shape) (count waveBase : Nat) :
    waveEnd shape count waveBase ≤ waveBase + shape.sharedQueueDepth := by
  unfold waveEnd
  split_ifs <;> omega

theorem lt_waveEnd (shape : Shape) {count waveBase : Nat} (inside : waveBase < count) :
    waveBase < waveEnd shape count waveBase := by
  have := shape.depthPos
  unfold waveEnd
  split_ifs <;> omega

/-! ## Copy warps -/

/-- One warp is in another state. -/
def withWarp (system : System shape) (warp : Fin shape.copyWarps) (next : CopyWarp) :
    System shape :=
  { system with copyWarps := Function.update system.copyWarps warp next }

section

variable (system : System shape) (warp : Fin shape.copyWarps) (next : CopyWarp)
  (bound : CopyWarp → Nat)

/-- A warp that is as far as before. -/
theorem past_same (same : bound next = bound (system.copyWarps warp))
    (limit : next.limit = (system.copyWarps warp).limit) (index : Nat) :
    Past bound (system.withWarp warp next) index ↔ Past bound system index := by
  have each : ∀ other, bound ((system.withWarp warp next).copyWarps other) =
      bound (system.copyWarps other) ∧ ((system.withWarp warp next).copyWarps other).limit =
        (system.copyWarps other).limit := by
    intro other
    unfold withWarp
    dsimp only
    rw [Function.update_apply]
    split_ifs with here
    · rw [here]
      exact ⟨same, limit⟩
    · exact ⟨rfl, rfl⟩
  unfold Past
  simp only [each]
  rfl

/-- A warp that is one task further. -/
theorem past_next (before : bound (system.copyWarps warp) = (system.copyWarps warp).answeredTo)
    (after : bound next = (system.copyWarps warp).answeredTo + 1)
    (limit : next.limit = (system.copyWarps warp).limit)
    (holds : (system.copyWarps warp).Holds (system.copyWarps warp).answeredTo)
    (within : (system.copyWarps warp).limit ≤ system.control.taskClaim)
    (lower : ∀ other, (system.copyWarps other).answeredTo ≤ bound (system.copyWarps other))
    (apart : ∀ other ≠ warp,
      ¬(system.copyWarps other).Holds (system.copyWarps warp).answeredTo) (index : Nat) :
    Past bound (system.withWarp warp next) index ↔
      index = (system.copyWarps warp).answeredTo ∨ Past bound system index := by
  have here : (system.withWarp warp next).copyWarps warp = next := Function.update_self ..
  have there : ∀ other ≠ warp, (system.withWarp warp next).copyWarps other =
      system.copyWarps other := fun other different => Function.update_of_ne different ..
  constructor
  · rintro ⟨claimed, past⟩
    have own := past warp
    rw [here, after, limit] at own
    by_cases equal : index = (system.copyWarps warp).answeredTo
    · exact .inl equal
    · refine .inr ⟨claimed, fun other => ?_⟩
      by_cases same : other = warp
      · rw [same, before]
        omega
      · rw [← there other same]
        exact past other
  · rintro (rfl | ⟨claimed, past⟩)
    · refine ⟨Nat.lt_of_lt_of_le holds.2 within, fun other => ?_⟩
      by_cases same : other = warp
      · rw [same, here, after]
        exact .inl (Nat.lt_succ_self _)
      · rw [there other same]
        have free := apart other same
        unfold CopyWarp.Holds at free
        have reached := lower other
        omega
    · refine ⟨claimed, fun other => ?_⟩
      by_cases same : other = warp
      · have own := past warp
        rw [same, here, after, limit]
        rw [before] at own
        omega
      · rw [there other same]
        exact past other

/-- What a warp is at is not behind it. -/
theorem not_past (here : bound (system.copyWarps warp) = (system.copyWarps warp).answeredTo)
    (holds : (system.copyWarps warp).Holds (system.copyWarps warp).answeredTo) :
    ¬Past bound system (system.copyWarps warp).answeredTo := by
  rintro ⟨-, past⟩
  have own := past warp
  have inside := holds.2
  rw [here] at own
  omega

end

end System

end Ugdr.Gpu.WarpSpecializedKernel
