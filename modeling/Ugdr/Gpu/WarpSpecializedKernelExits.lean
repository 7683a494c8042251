import Ugdr.Gpu.WarpSpecializedKernelRuns

/-! # Copy warps that leave

A copy warp leaves when it has loaded a claim index, a publish index and the word that says that
the ingress warp is done, and has found nothing between the two. The publish index may be old by
then: if the last tasks were published in between, they stay behind.
-/

namespace Ugdr.Gpu.WarpSpecializedKernel.System

open Machine Sequenced WarpSpecialized

variable {shape : Shape} {system : System shape}

/-! ## Without copy warps -/

/-- All copy warps have left, and nothing was claimed or copied since. -/
structure Abandoned (system later : System shape) : Prop where
  left : ∀ warp, (later.copyWarps warp).phase = .stopped
  claim : later.control.taskClaim = system.control.taskClaim
  copied : later.copied = system.copied

theorem Abandoned.step {later : System shape} (abandoned : Abandoned system later)
    (action : Action shape) : Abandoned system (step later action) := by
  obtain ⟨left, claim, copied⟩ := abandoned
  have phases : ∀ {warps : Fin shape.copyWarps → CopyWarp}, warps = later.copyWarps →
      ∀ warp, (warps warp).phase = .stopped := by
    rintro warps rfl
    exact left
  cases action with
  | call call => exact ⟨left, claim, copied⟩
  | host => exact ⟨left, claim, copied⟩
  | ingress lane =>
      have kept := later.ingressStep_keeps lane
      exact ⟨phases kept.copyWarps, kept.claim.trans claim, kept.copied.trans copied⟩
  | copy warp =>
      have same : later.copyStep warp = later := by
        unfold System.copyStep
        dsimp only
        rw [left warp]
      unfold System.step
      dsimp only
      rw [same]
      exact ⟨left, claim, copied⟩
  | egress lane =>
      have kept := later.egressStep_keeps lane
      exact ⟨phases kept.copyWarps, (congrArg SharedControl.taskClaim kept.control).trans claim,
        kept.copied.trans copied⟩

theorem Abandoned.run {later : System shape} (abandoned : Abandoned system later)
    (actions : List (Action shape)) :
    Abandoned system (Execution.run System.step later actions) :=
  Execution.run_invariant (fun _ action abandoned => abandoned.step action) abandoned actions

/-- What is unclaimed in `system` is never copied or answered. -/
structure Stranded (system later : System shape) : Prop where
  claim : later.control.taskClaim = system.control.taskClaim
  copied : later.copied = system.copied
  answered : later.queue.control.completionTail ≤ system.control.taskClaim
  polled : later.queue.polled.length ≤ system.control.taskClaim
  /-- The egress warp waits for the completions for ever. -/
  waits : system.control.taskClaim < system.queue.submitted.length →
    later.egress.phase ≠ .stopped

/-- What is published is claimed. -/
theorem Invariant.completionTail_le (invariant : system.Invariant) :
    system.queue.control.completionTail ≤ system.control.taskClaim := by
  by_contra further
  have last := invariant.answered_of_tail (Nat.not_le.mp further)
  exact Nat.lt_irrefl _ ((invariant.answered _).mp last).1

/-- Once all copy warps have left, what they have not claimed is never copied or answered,
whatever the others do. -/
theorem unclaimed_tasks_stranded (shape : Shape) (actions more : List (Action shape))
    (bounded : (Execution.run step ({} : System shape) (actions ++ more)).queue.submitted.length +
      warpSpecializedMetaBatch ≤ 2 ^ 64)
    (left : ∀ warp,
      ((Execution.run step ({} : System shape) actions).copyWarps warp).phase = .stopped) :
    Stranded (Execution.run step {} actions) (Execution.run step {} (actions ++ more)) := by
  have kept := (run_keeps initial_invariant bounded).losesNothing
  have claimed := (run_keeps initial_invariant bounded).completionTail_le
  rw [Execution.run_append] at kept claimed ⊢
  have abandoned := (Abandoned.mk left rfl rfl).run more
  have submitted := length_submitted_run (Execution.run step ({} : System shape) actions) more
  rw [abandoned.claim] at claimed
  refine ⟨abandoned.claim, abandoned.copied, claimed, kept.polledPublished.trans claimed,
    fun unclaimed stopped => ?_⟩
  have all := kept.egressExits stopped
  omega

/-- One copy warp, and two slots that it claims one by one or both at once. -/
def narrow : Shape where
  capacity := 64
  sharedQueueDepth := 2
  copyClaimBatch := 2
  copyWarps := 1
  power := rfl
  depthBounds := pair.depthBounds
  depthPower := pair.depthPower
  claimBounds := of_decide_eq_true rfl

/-- Its copy warp. -/
def onlyWarp : Fin narrow.copyWarps :=
  ⟨0, of_decide_eq_true rfl⟩

/-- One task is claimed, copied and answered. -/
def oneTask : List (Action narrow) :=
  [.call (.trySubmitBatch [⟨7, 4096, 16, 0⟩]), .host, .host] ++
    List.replicate 6 (.ingress 0) ++ List.replicate 10 (.copy onlyWarp) ++
      List.replicate 6 (.egress 0) ++ [.call .tryPoll, .host, .host]

/-- The copy warp looks for tasks before there are any. It finds that the ingress warp is done
when there is one. -/
def strandedTask : List (Action narrow) :=
  [.copy onlyWarp, .copy onlyWarp, .call (.trySubmitBatch [⟨7, 4096, 16, 0⟩]), .host, .host,
    .call .requestStop, .host] ++
      List.replicate 10 (.ingress 0) ++ [.copy onlyWarp]

theorem unclaimed_tasks_stranded_one :
    Stranded (Execution.run step ({} : System narrow) strandedTask)
        (Execution.run step {} (strandedTask ++ List.replicate 8 (.egress 0))) ∧
      (Execution.run step ({} : System narrow) strandedTask).control.taskClaim = 0 ∧
        (Execution.run step ({} : System narrow) strandedTask).queue.submitted.length = 1 :=
  ⟨unclaimed_tasks_stranded narrow strandedTask (List.replicate 8 (.egress 0))
    (by decide +kernel) (by decide +kernel), by decide +kernel, by decide +kernel⟩

/-! ## Copy warps that look again -/

/-- A copy warp that finds the ingress warp done has loaded the current publish index. -/
def fresh (system : System shape) : Action shape → Bool
  | .copy warp =>
      match (system.copyWarps warp).phase with
      | .loadDone _ taskPublish =>
          decide (system.control.ingressDone = 0 ∨ taskPublish = system.control.taskPublish)
      | _ => true
  | _ => true

/-- All tasks are claimed, and there will be no more. -/
structure AllClaimed (system : System shape) : Prop where
  stop : system.queue.control.stopRequested ≠ 0
  claim : system.control.taskClaim = system.queue.submitted.length

theorem AllClaimed.step (claimed : system.AllClaimed) (invariant : system.Invariant)
    (action : Action shape) : (step system action).AllClaimed := by
  obtain ⟨stop, claim⟩ := claimed
  cases action with
  | call call =>
      have later : Queue.HostLater shape.capacity system.queue _ := Queue.call_later call
      obtain ⟨stopped, -, submitted⟩ := later.final stop
      exact ⟨stopped, claim.trans (congrArg List.length submitted).symm⟩
  | host =>
      obtain ⟨stopped, -, submitted⟩ := (invariant.queue.hostStep_later shape.power).final stop
      exact ⟨stopped, claim.trans (congrArg List.length submitted).symm⟩
  | ingress lane =>
      have kept := system.ingressStep_keeps lane
      unfold System.step
      dsimp only
      exact ⟨kept.queue ▸ stop, kept.claim.trans (kept.queue ▸ claim)⟩
  | copy warp =>
      have sameQueue := (system.copyStep_keeps warp).queue
      refine ⟨fun none => stop (sameQueue ▸ none), ?_⟩
      rcases system.claim_copyStep warp with ⟨same, -⟩ | ⟨count, claiming, -⟩
      · exact (congrArg SharedControl.taskClaim same).trans
          (claim.trans (congrArg (·.submitted.length) sameQueue).symm)
      · -- There is nothing left to claim.
        have fits := (invariant.warps warp).phase
        rw [claiming] at fits
        obtain ⟨some_, below⟩ := fits
        have known := invariant.known_of_published (show system.control.taskPublish - 1 <
          system.control.taskPublish by omega)
        have tail := invariant.queue.tail_le
        omega
  | egress lane =>
      have kept := system.egressStep_keeps lane
      exact ⟨fun none => stop (kept.stop ▸ none),
        (congrArg SharedControl.taskClaim kept.control).trans
          (claim.trans (congrArg List.length kept.submitted).symm)⟩

/-- A copy warp leaves only behind its last look. -/
theorem left_copyStep {warp : Fin shape.copyWarps}
    (left : ((system.copyStep warp).copyWarps warp).phase = .stopped) :
    (system.copyWarps warp).phase = .stopped ∨ ∃ taskClaim taskPublish,
      (system.copyWarps warp).phase = .loadDone taskClaim taskPublish ∧
        system.control.ingressDone ≠ 0 ∧ taskPublish ≤ taskClaim := by
  have moved : ∀ {later : System shape} {next : CopyWarp},
      (Function.update later.copyWarps warp next warp).phase = .stopped →
        next.phase = .stopped := by
    intro later next stopped
    rw [Function.update_self] at stopped
    exact stopped
  unfold System.copyStep at left
  dsimp only at left
  cases phase : (system.copyWarps warp).phase with
  | stopped => exact .inl rfl
  | loadDone taskClaim taskPublish =>
      rw [phase] at left
      dsimp only at left
      split_ifs at left with leaves
      · exact .inr ⟨taskClaim, taskPublish, rfl, leaves⟩
      · cases moved left
  | loadClaim =>
      rw [phase] at left
      cases moved left
  | loadPublish taskClaim =>
      rw [phase] at left
      dsimp only at left
      split_ifs at left <;> cases moved left
  | claim taskClaim count =>
      rw [phase] at left
      dsimp only at left
      split_ifs at left <;> cases moved left
  | waitTask =>
      rw [phase] at left
      dsimp only at left
      split_ifs at left
      · cases moved left
      · rw [phase] at left
        cases left
  | readTask =>
      rw [phase] at left
      cases moved left
  | copy task =>
      rw [phase] at left
      cases moved left
  | storeTask task =>
      rw [phase] at left
      cases moved left
  | waitCompletion task =>
      rw [phase] at left
      dsimp only at left
      split_ifs at left
      · cases moved left
      · rw [phase] at left
        cases left
  | writeCompletion task =>
      rw [phase] at left
      cases moved left
  | storeCompletion =>
      rw [phase] at left
      have stopped := moved left
      split_ifs at stopped

/-- What a copy warp with a current publish index leaves behind is claimed. -/
theorem Invariant.allClaimed_of_fresh (invariant : system.Invariant) {warp : Fin shape.copyWarps}
    {taskClaim taskPublish : Nat}
    (deciding : (system.copyWarps warp).phase = .loadDone taskClaim taskPublish)
    (done : system.control.ingressDone ≠ 0)
    (current : taskPublish = system.control.taskPublish) : system.AllClaimed := by
  obtain ⟨stop, all⟩ := invariant.published_of_done done
  have fits := (invariant.warps warp).phase
  rw [deciding] at fits
  have claimed := invariant.claimed
  have below := fits.1
  have within := fits.2.1
  exact ⟨stop, by omega⟩

/-- A step that looks again keeps the tasks claimed when a copy warp leaves. -/
theorem Invariant.claimed_step (invariant : system.Invariant)
    (before : ∀ warp, (system.copyWarps warp).phase = .stopped → system.AllClaimed)
    (action : Action shape) (looks : system.fresh action = true) (warp : Fin shape.copyWarps)
    (left : ((System.step system action).copyWarps warp).phase = .stopped) :
    (System.step system action).AllClaimed := by
  have earlier : (system.copyWarps warp).phase = .stopped →
      (System.step system action).AllClaimed :=
    fun stopped => (before warp stopped).step invariant action
  cases action with
  | call call => exact earlier left
  | host => exact earlier left
  | ingress lane =>
      have same := (system.ingressStep_keeps lane).copyWarps
      exact earlier ((congrArg (fun warps => (warps warp).phase) same).symm.trans left)
  | copy mover =>
      by_cases own : warp = mover
      · subst own
        rcases left_copyStep left with stopped | ⟨taskClaim, taskPublish, deciding, done, -⟩
        · exact earlier stopped
        · unfold fresh at looks
          dsimp only at looks
          rw [deciding] at looks
          have current := (of_decide_eq_true looks).resolve_left done
          exact (invariant.allClaimed_of_fresh deciding done current).step invariant _
      · exact earlier ((congrArg CopyWarp.phase (copyStep_of_ne own)).symm.trans left)
  | egress lane =>
      have same := (system.egressStep_keeps lane).copyWarps
      exact earlier ((congrArg (fun warps => (warps warp).phase) same).symm.trans left)

theorem Invariant.claimed_run {actions : List (Action shape)} (invariant : system.Invariant)
    (before : ∀ warp, (system.copyWarps warp).phase = .stopped → system.AllClaimed)
    (bounded : (Execution.run System.step system actions).queue.submitted.length +
      warpSpecializedMetaBatch ≤ 2 ^ 64)
    (looks : Execution.Along System.step (fun system action => system.fresh action = true)
      system actions) (warp : Fin shape.copyWarps)
    (left : ((Execution.run System.step system actions).copyWarps warp).phase = .stopped) :
    (Execution.run System.step system actions).AllClaimed := by
  induction actions generalizing system with
  | nil => exact before warp left
  | cons action actions induction =>
      have later := length_submitted_run (System.step system action) actions
      rw [Execution.run_cons] at bounded left ⊢
      exact induction (invariant.step action (by omega))
        (invariant.claimed_step before action looks.1) bounded looks.2 left

/-- In every run in which each copy warp that finds the ingress warp done has loaded the current
publish index, all tasks are claimed as soon as one copy warp has left. -/
theorem fresh_exits_claim_all (shape : Shape) (actions : List (Action shape))
    (bounded : (Execution.run step ({} : System shape) actions).queue.submitted.length +
      warpSpecializedMetaBatch ≤ 2 ^ 64)
    (looks : Execution.Along step (fun system action => system.fresh action = true)
      ({} : System shape) actions) (warp : Fin shape.copyWarps)
    (left : ((Execution.run step ({} : System shape) actions).copyWarps warp).phase = .stopped) :
    (Execution.run step ({} : System shape) actions).control.taskClaim =
      (Execution.run step ({} : System shape) actions).queue.submitted.length :=
  (initial_invariant.claimed_run (fun _ stopped => by cases stopped) bounded looks warp left).claim

/-- The copy warp answers the task, and looks again when the ingress warp is done. -/
def answeredTask : List (Action narrow) :=
  oneTask ++ [.call .requestStop, .host] ++ List.replicate 4 (.ingress 0) ++
    List.replicate 3 (.copy onlyWarp)

theorem fresh_exits_claim_all_one :
    (Execution.run step ({} : System narrow) answeredTask).control.taskClaim =
      (Execution.run step ({} : System narrow) answeredTask).queue.submitted.length ∧
        (Execution.run step ({} : System narrow) answeredTask).queue.submitted.length = 1 :=
  ⟨fresh_exits_claim_all narrow answeredTask (by decide +kernel) (by decide +kernel)
    onlyWarp (by decide +kernel), by decide +kernel⟩

end Ugdr.Gpu.WarpSpecializedKernel.System
