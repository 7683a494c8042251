import Mathlib.Data.List.Perm.Basic
import Mathlib.Data.List.Range
import Ugdr.Gpu.PipelineEgress

/-! # Runs of the pipeline kernel

Every step keeps the invariant, and from it follows what a run has done.
-/

namespace Ugdr.Gpu.Pipeline.System

open Machine Handshake WarpSpecialized

variable {shape : Shape} {system : System shape}

/-! ## Submitted tasks -/

theorem submitted_ingressStep (system : System shape) (lane : Nat) :
    (system.ingressStep lane).queue = system.queue := by
  unfold System.ingressStep
  dsimp only
  cases system.ingress.phase with
  | fetch fetch =>
      dsimp only
      split_ifs
      · rfl
      · cases system.queue.fetch system.ingress.taskHead fetch <;> rfl
  | fill stopping taskCount lanes =>
      dsimp only
      by_cases outside : taskCount ≤ lane
      · rw [if_pos outside]
      · rw [if_neg outside]
        cases lanes lane with
        | wait =>
            dsimp only
            split_ifs <;> rfl
        | _ => rfl
  | stopped => rfl

theorem submitted_copyStep (system : System shape) (warp : Fin shape.copyWarps) :
    (system.copyStep warp).queue = system.queue := by
  unfold System.copyStep
  dsimp only
  cases (system.copyWarps warp).phase with
  | waitReady =>
      dsimp only
      split_ifs <;> rfl
  | waitConsumed task =>
      dsimp only
      split_ifs <;> rfl
  | _ => rfl

theorem submitted_egressStep (system : System shape) (lane : Nat) :
    (system.egressStep lane).queue.submitted = system.queue.submitted := by
  unfold System.egressStep
  dsimp only
  cases system.egress.phase with
  | fetch fetch =>
      dsimp only
      split_ifs
      · rfl
      · cases system.queue.fetch system.egress.completionHead fetch <;> rfl
  | collect completionCount lanes =>
      dsimp only
      by_cases outside : completionCount ≤ lane
      · rw [if_pos outside]
      · rw [if_neg outside]
        cases lanes lane with
        | wait =>
            dsimp only
            split_ifs <;> rfl
        | _ => rfl
  | release completionCount stored arrived =>
      dsimp only
      split_ifs <;> rfl
  | stopped => rfl

theorem length_submitted_step (system : System shape) (action : Action shape) :
    system.queue.submitted.length ≤ (step system action).queue.submitted.length := by
  cases action with
  | call call => exact (congrArg List.length (system.queue.submitted_call call)).ge
  | host => exact system.queue.length_submitted_hostStep
  | ingress lane =>
      exact (congrArg (·.submitted.length) (system.submitted_ingressStep lane)).ge
  | copy warp => exact (congrArg (·.submitted.length) (system.submitted_copyStep warp)).ge
  | egress lane => exact (congrArg List.length (system.submitted_egressStep lane)).ge

/-! ## Runs -/

theorem Invariant.step (invariant : system.Invariant) (action : Action shape)
    (bounded : (step system action).queue.submitted.length + warpSpecializedMetaBatch ≤ 2 ^ 64) :
    (step system action).Invariant := by
  cases action with
  | call call => exact invariant.hostLater (invariant.queue.call call) (Queue.call_later call)
  | host =>
      exact invariant.hostLater (invariant.queue.hostStep shape.power bounded)
        (invariant.queue.hostStep_later shape.power)
  | ingress lane => exact invariant.ingressStep lane
  | copy warp => exact invariant.copyStep warp
  | egress lane => exact invariant.egressStep lane

theorem run_keeps {actions : List (Action shape)} (invariant : system.Invariant)
    (bounded : (Execution.run step system actions).queue.submitted.length +
      warpSpecializedMetaBatch ≤ 2 ^ 64) :
    (Execution.run step system actions).Invariant :=
  Execution.run_invariant_below
    (fun system => system.queue.submitted.length + warpSpecializedMetaBatch)
    (fun system action => Nat.add_le_add_right (length_submitted_step system action) _)
    (fun _ action bounded invariant => invariant.step action bounded) invariant bounded

/-- What a run has done with the tasks that were submitted. -/
structure LosesNothing (system : System shape) : Prop where
  /-- A task that was handed over is in its shared slot until a copy warp takes it. -/
  handedOver : ∀ index, system.Filled index → ¬system.Taken index →
    (system.sharedTasks (cellOf shape index)).value = system.taskAt index
  /-- A completion that was handed over is in its shared slot until the slot is given back. -/
  answered : ∀ index, system.Done index → ¬system.Freed index →
    (system.sharedCompletions (cellOf shape index)).value = completionOf (system.taskAt index)
  /-- The copy warp of the index makes the copy, with the fields that were submitted. -/
  copies : ∀ copy ∈ system.copied, copy.warp = copy.index % shape.copyWarps ∧
    system.queue.submitted[copy.index]? = some copy.task
  once : (system.copied.map CopyRecord.index).Nodup
  /-- Completions are polled in the order of submission, each published after its copy. -/
  polled : system.queue.polled =
    (system.queue.submitted.take system.queue.polled.length).map completionOf
  polledPublished : system.queue.polled.length ≤ system.queue.control.completionTail
  copiedFirst : ∀ index < system.queue.control.completionTail,
    index ∈ system.copied.map CopyRecord.index
  /-- The warps exit when everything of theirs is done. -/
  copyExits : ∀ warp, (system.copyWarps warp).phase = .stopped →
    ∀ index < system.queue.submitted.length, index % shape.copyWarps = warp →
      index ∈ system.copied.map CopyRecord.index
  egressExits : system.egress.phase = .stopped →
    system.queue.control.completionTail = system.queue.submitted.length
  drained : system.queue.host = .idle → system.queue.submitTail = system.queue.completionHead →
    (system.copied.map CopyRecord.index).Perm (List.range system.queue.submitted.length) ∧
      system.queue.polled = system.queue.submitted.map completionOf

theorem Invariant.losesNothing (invariant : system.Invariant) : system.LosesNothing := by
  have tail := invariant.queue.tail_le
  have answeredBelow := invariant.queue.answeredBelow
  have polledBelow := invariant.queue.polledBelow
  have length : system.queue.polled.length = system.queue.completionHead := by
    rw [invariant.queue.polled, List.length_map, List.length_take]
    omega
  have published : ∀ index < system.queue.control.completionTail,
      index ∈ system.copied.map CopyRecord.index := fun index below =>
    invariant.ledger.complete index (copied_of_done (invariant.done_of_answered below))
  refine ⟨invariant.tasks.holds, invariant.completions.holds, fun copy member => ?_,
    invariant.ledger.once, ?_, length ▸ polledBelow, published, ?_, ?_, ?_⟩
  · obtain ⟨owned, submitted, -⟩ := invariant.ledger.sound copy member
    exact ⟨owned, submitted⟩
  · rw [length]
    exact invariant.queue.polled
  · intro warp stopped index below owned
    have fits := (invariant.warps warp).phase
    rw [stopped] at fits
    have here : owner shape index = warp := Fin.ext owned
    have reached : index < system.current warp := Nat.lt_of_lt_of_le below fits.2
    have before := (system.div_lt_succ_iff warp here).mp (Nat.lt_succ_of_le (by
      rw [← current_div]
      exact Nat.div_le_div_right reached.le))
    have local_ := before.resolve_left reached.ne
    apply invariant.ledger.complete
    apply copied_of_done
    unfold Done
    rw [here]
    exact local_
  · intro stopped
    have fits := invariant.egress.phase
    rw [stopped] at fits
    obtain ⟨⟨stop, final⟩, unpublished⟩ := fits
    have all := invariant.queue.tail_of_stopped stop
    omega
  · intro idle drained
    obtain ⟨submitTail, -⟩ := invariant.queue.idle idle
    have all : system.queue.completionHead = system.queue.submitted.length := by omega
    constructor
    · refine (List.perm_ext_iff_of_nodup invariant.ledger.once List.nodup_range).mpr fun index => ?_
      rw [List.mem_range]
      constructor
      · intro member
        obtain ⟨copy, found, rfl⟩ := List.mem_map.mp member
        exact (List.getElem?_eq_some_iff.mp (invariant.ledger.sound copy found).2.1).1
      · intro below
        exact published index (by omega)
    · rw [invariant.queue.polled, all, List.take_length]

/-- In every run that submits fewer tasks than the counters can count, every task is copied
once by its copy warp, and its completion is published after that and polled in order. -/
theorem pipeline_loses_nothing (shape : Shape) (actions : List (Action shape))
    (bounded : (Execution.run step ({} : System shape) actions).queue.submitted.length +
      warpSpecializedMetaBatch ≤ 2 ^ 64) :
    (Execution.run step ({} : System shape) actions).LosesNothing :=
  (run_keeps initial_invariant bounded).losesNothing

/-- Two copy warps with sixteen slots each. -/
def pair : Shape where
  capacity := 32
  sharedQueueDepth := 16
  copyWarps := 2
  power := rfl
  depthBounds := of_decide_eq_true rfl
  depthPower := rfl
  warpBounds := of_decide_eq_true rfl
  batchFits := of_decide_eq_true rfl

def firstWarp : Fin pair.copyWarps :=
  ⟨0, of_decide_eq_true rfl⟩

def secondWarp : Fin pair.copyWarps :=
  ⟨1, of_decide_eq_true rfl⟩

def fillBatch (taskCount : Nat) : List (Action pair) :=
  (0 :: (List.range taskCount).flatMap (List.replicate 4)).map .ingress

def collectBatch (completionCount : Nat) : List (Action pair) :=
  (0 :: (List.range completionCount).flatMap (List.replicate 3) ++
    0 :: List.range completionCount).map .egress

def poll (count : Nat) : List (Action pair) :=
  (List.replicate count [.call .tryPoll, .host, .host]).flatten

/-- A batch that fills all slots, copied by both copy warps in turn. -/
def fullBatch : List (Action pair) :=
  .call (.trySubmitBatch ((List.range 32).map adjacentTask)) :: List.replicate 33 .host ++
    fillBatch 32 ++ (List.replicate (16 * 7) [firstWarp, secondWarp]).flatten.map .copy ++
      collectBatch 32

/-- One completion is polled, and another task is submitted in its place. -/
def submitOneMore : List (Action pair) :=
  poll 1 ++ .call (.trySubmitBatch [adjacentTask 32]) :: List.replicate 2 .host

/-- The last task goes through the slots of the first. -/
def reusedSlot : List (Action pair) :=
  fullBatch ++ submitOneMore ++ fillBatch 1 ++ List.replicate 7 (.copy firstWarp) ++
    collectBatch 1 ++ poll 32

theorem pipeline_loses_nothing_reusedSlot :
    (Execution.run step ({} : System pair) reusedSlot).LosesNothing ∧
      (Execution.run step ({} : System pair) reusedSlot).queue.polled.map
        CopyCompletion.taskId = List.range 33 :=
  ⟨pipeline_loses_nothing pair reusedSlot (by decide +kernel), by decide +kernel⟩

end Ugdr.Gpu.Pipeline.System
