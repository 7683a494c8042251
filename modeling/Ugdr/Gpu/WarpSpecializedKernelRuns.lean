import Mathlib.Data.List.Perm.Basic
import Mathlib.Data.List.Range
import Ugdr.Gpu.WarpSpecializedKernelEgress

/-! # Runs of the warp-specialised kernel

Every step keeps the invariant, and from it follows what a run has done with the tasks that are
claimed. A run need not claim all of them.
-/

namespace Ugdr.Gpu.WarpSpecializedKernel

/-- The first task that a copy warp has claimed, and the end of the claim. -/
def CopyWarp.claimed (warp : CopyWarp) : Nat × Nat :=
  (warp.taskBase, warp.limit)

namespace System

open Machine Sequenced WarpSpecialized

variable {shape : Shape} {system : System shape}

/-! ## What a warp does not touch -/

/-- What the ingress warp leaves as it is. -/
structure KeptByIngress (system later : System shape) : Prop where
  queue : later.queue = system.queue
  claim : later.control.taskClaim = system.control.taskClaim
  copyWarps : later.copyWarps = system.copyWarps
  egress : later.egress = system.egress
  copied : later.copied = system.copied

/-- What a copy warp leaves as it is. -/
structure KeptByCopy (system later : System shape) : Prop where
  queue : later.queue = system.queue
  done : later.control.ingressDone = system.control.ingressDone
  ingress : later.ingress = system.ingress
  egress : later.egress = system.egress

/-- What the egress warp leaves as it is. -/
structure KeptByEgress (system later : System shape) : Prop where
  submitted : later.queue.submitted = system.queue.submitted
  tail : later.queue.control.taskTail = system.queue.control.taskTail
  stop : later.queue.control.stopRequested = system.queue.control.stopRequested
  control : later.control = system.control
  ingress : later.ingress = system.ingress
  copyWarps : later.copyWarps = system.copyWarps
  copied : later.copied = system.copied

theorem ingressStep_keeps (system : System shape) (lane : Nat) :
    KeptByIngress system (system.ingressStep lane) := by
  unfold System.ingressStep
  dsimp only
  cases system.ingress.phase with
  | fetch fetch =>
      dsimp only
      split_ifs
      · exact ⟨rfl, rfl, rfl, rfl, rfl⟩
      · cases system.queue.fetch system.ingress.taskHead fetch <;> exact ⟨rfl, rfl, rfl, rfl, rfl⟩
  | wave taskCount waveBase lanes =>
      dsimp only
      by_cases outside : taskCount ≤ lane
      · rw [if_pos outside]
        exact ⟨rfl, rfl, rfl, rfl, rfl⟩
      · rw [if_neg outside]
        cases lanes lane with
        | wait task =>
            dsimp only
            split_ifs <;> exact ⟨rfl, rfl, rfl, rfl, rfl⟩
        | _ => exact ⟨rfl, rfl, rfl, rfl, rfl⟩
  | publish taskCount waveBase lanes =>
      dsimp only
      split_ifs <;> exact ⟨rfl, rfl, rfl, rfl, rfl⟩
  | storeDone =>
      dsimp only
      split_ifs <;> exact ⟨rfl, rfl, rfl, rfl, rfl⟩
  | stopped => exact ⟨rfl, rfl, rfl, rfl, rfl⟩

theorem copyStep_keeps (system : System shape) (warp : Fin shape.copyWarps) :
    KeptByCopy system (system.copyStep warp) := by
  unfold System.copyStep
  dsimp only
  cases (system.copyWarps warp).phase with
  | loadPublish taskClaim =>
      dsimp only
      split_ifs <;> exact ⟨rfl, rfl, rfl, rfl⟩
  | loadDone taskClaim taskPublish =>
      dsimp only
      split_ifs <;> exact ⟨rfl, rfl, rfl, rfl⟩
  | claim taskClaim count =>
      dsimp only
      split_ifs <;> exact ⟨rfl, rfl, rfl, rfl⟩
  | waitTask =>
      dsimp only
      split_ifs <;> exact ⟨rfl, rfl, rfl, rfl⟩
  | waitCompletion task =>
      dsimp only
      split_ifs <;> exact ⟨rfl, rfl, rfl, rfl⟩
  | _ => exact ⟨rfl, rfl, rfl, rfl⟩

theorem egressStep_keeps (system : System shape) (lane : Nat) :
    KeptByEgress system (system.egressStep lane) := by
  unfold System.egressStep
  dsimp only
  cases system.egress.phase with
  | fetch fetch =>
      dsimp only
      split_ifs
      · exact ⟨rfl, rfl, rfl, rfl, rfl, rfl, rfl⟩
      · cases system.queue.fetch system.egress.completionHead fetch <;>
          exact ⟨rfl, rfl, rfl, rfl, rfl, rfl, rfl⟩
  | collect completionCount waveBase lanes =>
      dsimp only
      by_cases outside : lane < waveBase ∨ waveEnd shape completionCount waveBase ≤ lane
      · rw [if_pos outside]
        exact ⟨rfl, rfl, rfl, rfl, rfl, rfl, rfl⟩
      · rw [if_neg outside]
        cases lanes lane with
        | wait =>
            dsimp only
            split_ifs <;> exact ⟨rfl, rfl, rfl, rfl, rfl, rfl, rfl⟩
        | _ => exact ⟨rfl, rfl, rfl, rfl, rfl, rfl, rfl⟩
  | free completionCount waveBase lanes =>
      dsimp only
      by_cases outside : lane < waveBase ∨ waveEnd shape completionCount waveBase ≤ lane
      · rw [if_pos outside]
        exact ⟨rfl, rfl, rfl, rfl, rfl, rfl, rfl⟩
      · rw [if_neg outside]
        cases lanes lane <;> exact ⟨rfl, rfl, rfl, rfl, rfl, rfl, rfl⟩
  | write completionCount lanes =>
      dsimp only
      by_cases outside : completionCount ≤ lane
      · rw [if_pos outside]
        exact ⟨rfl, rfl, rfl, rfl, rfl, rfl, rfl⟩
      · rw [if_neg outside]
        cases lanes lane <;> exact ⟨rfl, rfl, rfl, rfl, rfl, rfl, rfl⟩
  | storeTail completionCount =>
      dsimp only
      split_ifs <;> exact ⟨rfl, rfl, rfl, rfl, rfl, rfl, rfl⟩
  | stopped => exact ⟨rfl, rfl, rfl, rfl, rfl, rfl, rfl⟩

theorem length_submitted_step (system : System shape) (action : Action shape) :
    system.queue.submitted.length ≤ (step system action).queue.submitted.length := by
  cases action with
  | call call => exact (congrArg List.length (system.queue.submitted_call call)).ge
  | host => exact system.queue.length_submitted_hostStep
  | ingress lane => exact (congrArg (·.submitted.length) (system.ingressStep_keeps lane).queue).ge
  | copy warp => exact (congrArg (·.submitted.length) (system.copyStep_keeps warp).queue).ge
  | egress lane => exact (congrArg List.length (system.egressStep_keeps lane).submitted).ge

theorem length_submitted_run (system : System shape) (actions : List (Action shape)) :
    system.queue.submitted.length ≤
      (Execution.run step system actions).queue.submitted.length :=
  Execution.run_mono (fun system => system.queue.submitted.length) length_submitted_step system
    actions

/-! ## Runs -/

theorem Invariant.step (invariant : system.Invariant) (action : Action shape)
    (bounded : (step system action).queue.submitted.length + warpSpecializedMetaBatch ≤ 2 ^ 64) :
    (step system action).Invariant := by
  cases action with
  | call call => exact invariant.hostLater (invariant.queue.call call) (Queue.call_later call)
  | host =>
      exact invariant.hostLater (invariant.queue.hostStep shape.power bounded)
        (invariant.queue.hostStep_later shape.power)
  | ingress lane => exact invariant.ingressStep lane
  | copy warp => exact invariant.copyStep warp
  | egress lane => exact invariant.egressStep lane

theorem run_keeps {actions : List (Action shape)} (invariant : system.Invariant)
    (bounded : (Execution.run step system actions).queue.submitted.length +
      warpSpecializedMetaBatch ≤ 2 ^ 64) :
    (Execution.run step system actions).Invariant :=
  Execution.run_invariant_below
    (fun system => system.queue.submitted.length + warpSpecializedMetaBatch)
    (fun system action => Nat.add_le_add_right (length_submitted_step system action) _)
    (fun _ action bounded invariant => invariant.step action bounded) invariant bounded

/-! ## Claims -/

/-- The other copy warps stay where they are. -/
theorem copyStep_of_ne {warp other : Fin shape.copyWarps} (different : other ≠ warp) :
    (system.copyStep warp).copyWarps other = system.copyWarps other := by
  have stays : ∀ next, Function.update system.copyWarps warp next other =
      system.copyWarps other := fun _ => Function.update_of_ne different ..
  unfold System.copyStep
  dsimp only
  cases (system.copyWarps warp).phase with
  | loadPublish taskClaim =>
      dsimp only
      split_ifs <;> exact stays _
  | loadDone taskClaim taskPublish =>
      dsimp only
      split_ifs <;> exact stays _
  | claim taskClaim count =>
      dsimp only
      split_ifs <;> exact stays _
  | waitTask =>
      dsimp only
      split_ifs
      · exact stays _
      · rfl
  | waitCompletion task =>
      dsimp only
      split_ifs
      · exact stays _
      · rfl
  | stopped => rfl
  | _ => exact stays _

theorem claim_copyStep (system : System shape) (warp : Fin shape.copyWarps) :
    ((system.copyStep warp).control = system.control ∧
      ((system.copyStep warp).copyWarps warp).claimed = (system.copyWarps warp).claimed) ∨
    ∃ count, (system.copyWarps warp).phase = .claim system.control.taskClaim count ∧
      (system.copyStep warp).control.taskClaim = wrapAdd 64 system.control.taskClaim count ∧
      ((system.copyStep warp).copyWarps warp).claimed =
        (system.control.taskClaim, system.control.taskClaim + count) := by
  have stays : ∀ phase, CopyWarp.claimed (Function.update system.copyWarps warp
      { system.copyWarps warp with phase } warp) = (system.copyWarps warp).claimed := by
    intro phase
    rw [Function.update_self]
    rfl
  unfold System.copyStep
  dsimp only
  cases phase : (system.copyWarps warp).phase with
  | claim taskClaim count =>
      dsimp only
      by_cases current : system.control.taskClaim = taskClaim
      · subst current
        rw [if_pos rfl]
        refine .inr ⟨count, rfl, rfl, ?_⟩
        dsimp only
        rw [Function.update_self]
        rfl
      · rw [if_neg current]
        exact .inl ⟨rfl, stays _⟩
  | loadPublish taskClaim =>
      dsimp only
      split_ifs <;> exact .inl ⟨rfl, stays _⟩
  | loadDone taskClaim taskPublish =>
      dsimp only
      split_ifs <;> exact .inl ⟨rfl, stays _⟩
  | waitTask =>
      dsimp only
      split_ifs
      · exact .inl ⟨rfl, stays _⟩
      · exact .inl ⟨rfl, rfl⟩
  | waitCompletion task =>
      dsimp only
      split_ifs
      · exact .inl ⟨rfl, stays _⟩
      · exact .inl ⟨rfl, rfl⟩
  | storeCompletion =>
      refine .inl ⟨rfl, ?_⟩
      dsimp only
      rw [Function.update_self]
      rfl
  | stopped => exact .inl ⟨rfl, rfl⟩
  | _ => exact .inl ⟨rfl, stays _⟩

/-- Claims follow one another. A step leaves them as they are, or a copy warp claims the tasks
from `task_claim` up to where that is then. -/
def ClaimsNext (system : System shape) (action : Action shape) : Prop :=
  ((step system action).control.taskClaim = system.control.taskClaim ∧
    ∀ warp, ((step system action).copyWarps warp).claimed = (system.copyWarps warp).claimed) ∨
  ∃ warp, action = .copy warp ∧
    system.control.taskClaim < (step system action).control.taskClaim ∧
    ((step system action).copyWarps warp).claimed =
      (system.control.taskClaim, (step system action).control.taskClaim) ∧
    ∀ other, other ≠ warp →
      ((step system action).copyWarps other).claimed = (system.copyWarps other).claimed

theorem Invariant.claimsNext (invariant : system.Invariant) (action : Action shape) :
    system.ClaimsNext action := by
  cases action with
  | call call => exact .inl ⟨rfl, fun _ => rfl⟩
  | host => exact .inl ⟨rfl, fun _ => rfl⟩
  | ingress lane =>
      have kept := system.ingressStep_keeps lane
      exact .inl ⟨kept.claim,
        fun warp => congrArg (fun warps => (warps warp).claimed) kept.copyWarps⟩
  | copy warp =>
      have others : ∀ other, other ≠ warp → ((system.copyStep warp).copyWarps other).claimed =
          (system.copyWarps other).claimed :=
        fun other different => congrArg CopyWarp.claimed (copyStep_of_ne different)
      rcases system.claim_copyStep warp with ⟨control, same⟩ | ⟨count, claiming, claim, claimed⟩
      · refine .inl ⟨congrArg SharedControl.taskClaim control, fun other => ?_⟩
        by_cases own : other = warp
        · subst own
          exact same
        · exact others other own
      · have fits := (invariant.warps warp).phase
        rw [claiming] at fits
        obtain ⟨some_, below⟩ := fits
        have known := invariant.known_of_published (show system.control.taskPublish - 1 <
          system.control.taskPublish by omega)
        have tail := invariant.queue.tail_le
        have bounded := invariant.queue.bounded
        have batch : warpSpecializedMetaBatch = 32 := rfl
        rw [wrapAdd_of_lt (by omega)] at claim
        refine .inr ⟨warp, rfl, claim ▸ Nat.lt_add_of_pos_right some_, ?_, others⟩
        exact claimed.trans (congrArg (Prod.mk _) claim.symm)
  | egress lane =>
      have kept := system.egressStep_keeps lane
      exact .inl ⟨congrArg SharedControl.taskClaim kept.control,
        fun warp => congrArg (fun warps => (warps warp).claimed) kept.copyWarps⟩

/-! ## What a run has done -/

theorem Past.mono {bound further : CopyWarp → Nat} {index : Nat} (past : Past bound system index)
    (le : ∀ warp : CopyWarp, bound warp ≤ further warp) : Past further system index :=
  ⟨past.1, fun warp => (past.2 warp).imp_left fun below => Nat.lt_of_lt_of_le below (le _)⟩

/-- What a run has done with the tasks that were submitted. -/
structure LosesNothing (system : System shape) : Prop where
  /-- A task that was handed over is in its shared slot until the slot is given back. -/
  handedOver : ∀ index, Filled shape.sharedQueueDepth system.sharedTasks index →
    ¬Taken shape.sharedQueueDepth system.sharedTasks index →
      (system.sharedTasks (index % shape.sharedQueueDepth)).value = system.taskAt index
  /-- So is a completion. -/
  answered : ∀ index, Filled shape.sharedQueueDepth system.sharedCompletions index →
    ¬Taken shape.sharedQueueDepth system.sharedCompletions index →
      (system.sharedCompletions (index % shape.sharedQueueDepth)).value =
        completionOf (system.taskAt index)
  /-- No two copy warps work on one task. -/
  apart : ∀ warp other, other ≠ warp → ∀ index, (system.copyWarps warp).Holds index →
    ¬(system.copyWarps other).Holds index
  /-- What is claimed ends at or below `task_claim`. -/
  claimed : ∀ warp, (system.copyWarps warp).limit ≤ system.control.taskClaim
  /-- A copy is made of a claimed task, with the fields that were submitted. -/
  copies : ∀ copy ∈ system.copied, copy.index < system.control.taskClaim ∧
    system.queue.submitted[copy.index]? = some copy.task
  once : (system.copied.map CopyRecord.index).Nodup
  /-- Completions are polled in the order of submission, each published after its copy. -/
  polled : system.queue.polled =
    (system.queue.submitted.take system.queue.polled.length).map completionOf
  polledPublished : system.queue.polled.length ≤ system.queue.control.completionTail
  copiedFirst : ∀ index < system.queue.control.completionTail,
    index ∈ system.copied.map CopyRecord.index
  /-- A copy warp leaves when all tasks are handed over and its own are answered. -/
  copyExits : ∀ warp, (system.copyWarps warp).phase = .stopped →
    system.control.taskPublish = system.queue.submitted.length ∧
      ∀ index, ¬(system.copyWarps warp).Holds index
  egressExits : system.egress.phase = .stopped →
    system.queue.control.completionTail = system.queue.submitted.length
  drained : system.queue.host = .idle → system.queue.submitTail = system.queue.completionHead →
    (system.copied.map CopyRecord.index).Perm (List.range system.queue.submitted.length) ∧
      system.queue.polled = system.queue.submitted.map completionOf

namespace Invariant

variable (invariant : system.Invariant)

include invariant

/-- What is published is copied. -/
theorem copied_of_published {index : Nat} (below : index < system.queue.control.completionTail) :
    index ∈ system.copied.map CopyRecord.index := by
  have answered := (invariant.answered index).mp (invariant.answered_of_tail below)
  apply (invariant.ledger.exact index).mpr
  exact answered.mono fun warp => warp.answeredTo_le_takenTo.trans warp.takenTo_le_copiedTo

/-- The ingress warp says that it is done when it has handed over everything. -/
theorem published_of_done (done : system.control.ingressDone ≠ 0) :
    system.queue.control.stopRequested ≠ 0 ∧
      system.control.taskPublish = system.queue.submitted.length := by
  have stopped := invariant.ingress.done done
  have phase := invariant.ingress.phase
  have head := invariant.ingress.head
  rw [stopped] at phase
  have all := invariant.queue.tail_of_stopped phase.1
  refine ⟨phase.1, invariant.published.trans ?_⟩
  unfold Ingress.published
  rw [stopped]
  dsimp only
  omega

theorem losesNothing : system.LosesNothing := by
  have tail := invariant.queue.tail_le
  have answeredBelow := invariant.queue.answeredBelow
  have length : system.queue.polled.length = system.queue.completionHead := by
    have polledBelow := invariant.queue.polledBelow
    rw [invariant.queue.polled, List.length_map, List.length_take]
    omega
  refine ⟨invariant.tasks.holds, invariant.completions.holds, invariant.apart,
    fun warp => (invariant.warps warp).within,
    fun copy member => ⟨?_, invariant.ledger.sound copy member⟩, invariant.ledger.once, ?_,
    length ▸ invariant.queue.polledBelow, fun index => invariant.copied_of_published, ?_, ?_, ?_⟩
  · exact ((invariant.ledger.exact copy.index).mp (List.mem_map_of_mem member)).1
  · rw [length]
    exact invariant.queue.polled
  · intro warp stopped
    obtain ⟨-, idle, -, fits⟩ := invariant.warps warp
    rw [stopped] at idle fits
    refine ⟨(invariant.published_of_done fits).2, fun index holds => ?_⟩
    have all := idle rfl
    have from_ : (system.copyWarps warp).taskBase + (system.copyWarps warp).batchIndex ≤ index :=
      holds.1
    have below : index < (system.copyWarps warp).taskBase + (system.copyWarps warp).taskCount :=
      holds.2
    omega
  · intro stopped
    have fits := invariant.egress.phase
    rw [stopped] at fits
    have published := invariant.egress.published
    have all := invariant.queue.tail_of_stopped fits.1
    omega
  · intro idle drained
    obtain ⟨submitTail, -⟩ := invariant.queue.idle idle
    have polledBelow := invariant.queue.polledBelow
    have all : system.queue.completionHead = system.queue.submitted.length := by omega
    constructor
    · refine (List.perm_ext_iff_of_nodup invariant.ledger.once List.nodup_range).mpr fun index => ?_
      rw [List.mem_range]
      constructor
      · intro member
        obtain ⟨copy, found, rfl⟩ := List.mem_map.mp member
        exact (List.getElem?_eq_some_iff.mp (invariant.ledger.sound copy found)).1
      · intro below
        exact invariant.copied_of_published (by omega)
    · rw [invariant.queue.polled, all, List.take_length]

end Invariant

/-- In every run that submits fewer tasks than the counters can count, the claims follow one
another, every claimed task is copied at most once, and its completion is published after that
and polled in order. -/
theorem claims_lose_nothing (shape : Shape) (actions : List (Action shape))
    (bounded : (Execution.run step ({} : System shape) actions).queue.submitted.length +
      warpSpecializedMetaBatch ≤ 2 ^ 64) :
    Execution.Along step ClaimsNext ({} : System shape) actions ∧
      (Execution.run step ({} : System shape) actions).LosesNothing := by
  refine ⟨?_, (run_keeps initial_invariant bounded).losesNothing⟩
  exact Execution.along_of_invariant_below
    (fun system => system.queue.submitted.length + warpSpecializedMetaBatch)
    (fun system action => Nat.add_le_add_right (length_submitted_step system action) _)
    (fun _ action bounded invariant => Invariant.step invariant action bounded)
    (fun _ action invariant => invariant.claimsNext action) initial_invariant bounded

/-- Two copy warps that claim tasks one by one, and two slots. -/
def pair : Shape where
  capacity := 4
  sharedQueueDepth := 2
  copyClaimBatch := 1
  copyWarps := 2
  power := rfl
  depthBounds := of_decide_eq_true rfl
  depthPower := rfl
  claimBounds := of_decide_eq_true rfl

def firstWarp : Fin pair.copyWarps :=
  ⟨0, of_decide_eq_true rfl⟩

def secondWarp : Fin pair.copyWarps :=
  ⟨1, of_decide_eq_true rfl⟩

/-- Three tasks are submitted, and the first two are handed over. -/
def submitThree : List (Action pair) :=
  .call (.trySubmitBatch [⟨7, 4096, 16, 0⟩, ⟨8, 4112, 16, 16⟩, ⟨9, 4128, 16, 32⟩]) ::
    List.replicate 4 .host ++ [0, 0, 0, 0, 0, 1, 1, 1, 1, 2, 0].map .ingress

/-- Both copy warps find the first task, and the second one comes too late to claim it. -/
def contend : List (Action pair) :=
  [firstWarp, secondWarp, firstWarp, secondWarp, firstWarp, secondWarp].map .copy

/-- The two tasks are copied, and the egress warp gives back their slots. -/
def answerTwo : List (Action pair) :=
  (List.replicate 7 firstWarp ++ List.replicate 10 secondWarp).map .copy ++
    [0, 0, 1, 0, 1, 1, 0].map .egress

/-- The third task goes through the slots of the first. -/
def answerThird : List (Action pair) :=
  [2, 2, 2, 0].map .ingress ++ (List.replicate 10 secondWarp).map .copy ++
    [2, 2, 2, 2, 1, 0, 0].map .egress

def threeTasks : List (Action pair) :=
  submitThree ++ contend ++ answerTwo ++ answerThird ++
    (List.replicate 3 [.call .tryPoll, .host, .host]).flatten

theorem claims_lose_nothing_three :
    (Execution.Along step ClaimsNext ({} : System pair) threeTasks ∧
      (Execution.run step ({} : System pair) threeTasks).LosesNothing) ∧
        (Execution.run step ({} : System pair) threeTasks).queue.polled =
          [⟨7, .success⟩, ⟨8, .success⟩, ⟨9, .success⟩] ∧
        (Execution.run step ({} : System pair) threeTasks).copied.map CopyRecord.warp = [0, 1, 1] :=
  ⟨claims_lose_nothing pair threeTasks (by decide +kernel), by decide +kernel, by decide +kernel⟩

end System

end Ugdr.Gpu.WarpSpecializedKernel
