import Ugdr.Gpu.PipelineWork

/-! # Progress of the pipeline kernel

The warps wait for each other in both directions. The task with the lowest index that is not
done is never the one that waits, so the warps come to rest only when everything is done.
-/

namespace Ugdr.Gpu.Pipeline

open Machine Handshake WarpSpecialized

/-! ## Batches -/

/-- A batch is over with its last lane. -/
def Ingress.Busy (ingress : Ingress) : Prop :=
  match ingress.phase with
  | .fill _ taskCount lanes => ∃ lane < taskCount, lanes lane ≠ .done
  | _ => True

def Egress.Busy (egress : Egress) : Prop :=
  match egress.phase with
  | .collect completionCount lanes => ∃ lane < completionCount, lanes lane ≠ .done
  | .release completionCount _ arrived => ∃ lane < completionCount, arrived lane = false
  | _ => True

namespace System

variable {shape : Shape} {system : System shape}

theorem busy_filled (taskHead : Nat) (stopping : Bool) (taskCount : Nat)
    (lanes : Nat → FillLane) : (filled taskHead stopping taskCount lanes).Busy := by
  unfold filled
  split_ifs with all stop
  · trivial
  · trivial
  · obtain ⟨lane, inside, undone⟩ := exists_of_not_all all
    exact ⟨lane, inside, of_decide_eq_false undone⟩

theorem busy_released (completionHead completionCount : Nat) (stored : Bool)
    (arrived : Nat → Bool) : (released completionHead completionCount stored arrived).Busy := by
  unfold released
  split_ifs with all
  · trivial
  · exact exists_of_not_all all

theorem busy_collected (completionHead : Nat) {completionCount : Nat}
    (lanes : Nat → CollectLane) (some_ : 0 < completionCount) :
    (collected completionHead completionCount lanes).Busy := by
  unfold collected
  split_ifs with all
  · exact ⟨0, some_, rfl⟩
  · obtain ⟨lane, inside, undone⟩ := exists_of_not_all all
    exact ⟨lane, inside, of_decide_eq_false undone⟩

theorem Invariant.busy_ingressStep (invariant : system.Invariant) (busy : system.ingress.Busy)
    (lane : Nat) : (system.ingressStep lane).ingress.Busy := by
  unfold System.ingressStep
  dsimp only
  cases phase : system.ingress.phase with
  | fetch fetch =>
      dsimp only
      split_ifs
      · exact busy
      · cases fetched : system.queue.fetch system.ingress.taskHead fetch with
        | again next => trivial
        | batch taskCount =>
            exact ⟨0, (invariant.queue.fetch_batch fetched).1, by rintro ⟨⟩⟩
        | stop => exact ⟨0, shape.warpsPos, by rintro ⟨⟩⟩
  | fill stopping taskCount lanes =>
      dsimp only
      by_cases outside : taskCount ≤ lane
      · rw [if_pos outside]
        exact busy
      · rw [if_neg outside]
        have inside := Nat.not_le.mp outside
        have moved : ∀ next ≠ FillLane.done, Ingress.Busy
            { taskHead := system.ingress.taskHead
              phase := .fill stopping taskCount (Function.update lanes lane next) } := by
          intro next undone
          refine ⟨lane, inside, ?_⟩
          rw [Function.update_self]
          exact undone
        cases lanes lane with
        | wait =>
            dsimp only
            split_ifs
            · exact moved _ (by rintro ⟨⟩)
            · exact moved _ (by rintro ⟨⟩)
            · exact busy
        | read => exact moved _ (by rintro ⟨⟩)
        | write task => exact moved _ (by rintro ⟨⟩)
        | arrive => exact busy_filled _ _ _ _
        | done => exact busy
  | stopped => exact busy

theorem Invariant.busy_egressStep (invariant : system.Invariant) (busy : system.egress.Busy)
    (lane : Nat) : (system.egressStep lane).egress.Busy := by
  unfold System.egressStep
  dsimp only
  cases phase : system.egress.phase with
  | fetch fetch =>
      dsimp only
      split_ifs
      · exact busy
      · cases fetched : system.queue.fetch system.egress.completionHead fetch with
        | again next => trivial
        | batch completionCount =>
            exact ⟨0, (invariant.queue.fetch_batch fetched).1, by rintro ⟨⟩⟩
        | stop => trivial
  | collect completionCount lanes =>
      dsimp only
      by_cases outside : completionCount ≤ lane
      · rw [if_pos outside]
        exact busy
      · rw [if_neg outside]
        have inside := Nat.not_le.mp outside
        have moved : ∀ next ≠ CollectLane.done, Egress.Busy
            { completionHead := system.egress.completionHead
              phase := .collect completionCount (Function.update lanes lane next) } := by
          intro next undone
          refine ⟨lane, inside, ?_⟩
          rw [Function.update_self]
          exact undone
        cases lanes lane with
        | wait =>
            dsimp only
            split_ifs
            · exact moved _ (by rintro ⟨⟩)
            · exact busy
        | read => exact moved _ (by rintro ⟨⟩)
        | write completion => exact busy_collected _ _ (Nat.zero_lt_of_lt inside)
        | done => exact busy
  | release completionCount stored arrived =>
      have waiting : ∃ lane < completionCount, arrived lane = false := by
        unfold Egress.Busy at busy
        rw [phase] at busy
        exact busy
      dsimp only
      split_ifs
      · exact busy
      · exact waiting
      · exact busy
      · exact busy_released _ _ _ _
  | stopped => exact busy

/-! ## What a warp does not touch -/

theorem egress_ingressStep (system : System shape) (lane : Nat) :
    (system.ingressStep lane).egress = system.egress := by
  unfold System.ingressStep
  dsimp only
  cases system.ingress.phase with
  | fetch fetch =>
      dsimp only
      split_ifs
      · rfl
      · cases system.queue.fetch system.ingress.taskHead fetch <;> rfl
  | fill stopping taskCount lanes =>
      dsimp only
      by_cases outside : taskCount ≤ lane
      · rw [if_pos outside]
      · rw [if_neg outside]
        cases lanes lane with
        | wait =>
            dsimp only
            split_ifs <;> rfl
        | _ => rfl
  | stopped => rfl

theorem phases_copyStep (system : System shape) (warp : Fin shape.copyWarps) :
    (system.copyStep warp).ingress = system.ingress ∧
      (system.copyStep warp).egress = system.egress := by
  unfold System.copyStep
  dsimp only
  cases (system.copyWarps warp).phase with
  | waitReady =>
      dsimp only
      split_ifs <;> exact ⟨rfl, rfl⟩
  | waitConsumed task =>
      dsimp only
      split_ifs <;> exact ⟨rfl, rfl⟩
  | _ => exact ⟨rfl, rfl⟩

theorem frame_egressStep (system : System shape) (lane : Nat) :
    (system.egressStep lane).ingress = system.ingress ∧
      (system.egressStep lane).queue.control.taskTail = system.queue.control.taskTail ∧
        (system.egressStep lane).queue.control.stopRequested =
          system.queue.control.stopRequested := by
  unfold System.egressStep
  dsimp only
  cases system.egress.phase with
  | fetch fetch =>
      dsimp only
      split_ifs
      · exact ⟨rfl, rfl, rfl⟩
      · cases system.queue.fetch system.egress.completionHead fetch <;> exact ⟨rfl, rfl, rfl⟩
  | collect completionCount lanes =>
      dsimp only
      by_cases outside : completionCount ≤ lane
      · rw [if_pos outside]
        exact ⟨rfl, rfl, rfl⟩
      · rw [if_neg outside]
        cases lanes lane with
        | wait =>
            dsimp only
            split_ifs <;> exact ⟨rfl, rfl, rfl⟩
        | _ => exact ⟨rfl, rfl, rfl⟩
  | release completionCount stored arrived =>
      dsimp only
      split_ifs <;> exact ⟨rfl, rfl, rfl⟩
  | stopped => exact ⟨rfl, rfl, rfl⟩

/-! ## Sound systems -/

/-- What every step keeps. -/
structure Sound (system : System shape) : Prop where
  invariant : system.Invariant
  ingress : system.ingress.Busy
  egress : system.egress.Busy

theorem initial_sound : Sound ({} : System shape) :=
  ⟨initial_invariant, trivial, trivial⟩

theorem Sound.step (sound : system.Sound) (action : Action shape)
    (bounded : (System.step system action).queue.submitted.length + warpSpecializedMetaBatch ≤
      2 ^ 64) : (System.step system action).Sound := by
  have invariant := sound.invariant.step action bounded
  cases action with
  | call call => exact ⟨invariant, sound.ingress, sound.egress⟩
  | host => exact ⟨invariant, sound.ingress, sound.egress⟩
  | ingress lane =>
      refine ⟨invariant, sound.invariant.busy_ingressStep sound.ingress lane, ?_⟩
      exact (congrArg Egress.Busy (system.egress_ingressStep lane)).mpr sound.egress
  | copy warp =>
      exact ⟨invariant, (congrArg Ingress.Busy (system.phases_copyStep warp).1).mpr sound.ingress,
        (congrArg Egress.Busy (system.phases_copyStep warp).2).mpr sound.egress⟩
  | egress lane =>
      refine ⟨invariant, ?_, sound.invariant.busy_egressStep sound.egress lane⟩
      exact (congrArg Ingress.Busy (system.frame_egressStep lane).1).mpr sound.ingress

theorem run_sound {actions : List (Action shape)} (sound : system.Sound)
    (bounded : (Execution.run System.step system actions).queue.submitted.length +
      warpSpecializedMetaBatch ≤ 2 ^ 64) :
    (Execution.run System.step system actions).Sound :=
  Execution.run_invariant_below
    (fun system => system.queue.submitted.length + warpSpecializedMetaBatch)
    (fun system action => Nat.add_le_add_right (length_submitted_step system action) _)
    (fun _ action bounded sound => Sound.step sound action bounded) sound bounded

/-! ## Steps of the device -/

/-- A step of a warp. -/
def Runs : System shape → System shape → Prop :=
  Turns System.step Action.onDevice

theorem Sound.deviceStep (sound : system.Sound) {action : Action shape}
    (device : action.onDevice) : (System.step system action).Sound ∧
      (System.step system action).queue.published = system.queue.published := by
  have bounded := sound.invariant.queue.bounded
  cases action with
  | call call => exact device.elim
  | host => exact device.elim
  | ingress lane =>
      have same := system.submitted_ingressStep lane
      refine ⟨sound.step _ ?_, congrArg Queue.published same⟩
      exact (congrArg (·.submitted.length + warpSpecializedMetaBatch) same).trans_le bounded
  | copy warp =>
      have same := system.submitted_copyStep warp
      refine ⟨sound.step _ ?_, congrArg Queue.published same⟩
      exact (congrArg (·.submitted.length + warpSpecializedMetaBatch) same).trans_le bounded
  | egress lane =>
      have same := system.submitted_egressStep lane
      obtain ⟨-, tail, stop⟩ := system.frame_egressStep lane
      refine ⟨sound.step _ ?_, Prod.ext tail stop⟩
      exact (congrArg (·.length + warpSpecializedMetaBatch) same).trans_le bounded

theorem takesTurns : TakesTurns (step : System shape → Action shape → System shape)
    Action.onDevice Polls Blocked Sound (fun system => system.queue.published) work where
  kept := fun sound device => sound.deviceStep device
  vain := fun sound polls => sound.invariant.work_polls polls
  progress := fun sound device busy => sound.invariant.work_step device busy

/-! ## Rest -/

/-- No warp has anything to do. -/
structure Rests (system : System shape) : Prop where
  sound : system.Sound
  still : ∀ later, ¬Works system later

namespace Rests

variable (rests : system.Rests)

include rests

theorem blocked (action : Action shape) (device : action.onDevice)
    (busy : ¬system.Polls action) : system.Blocked action :=
  takesTurns.blocked_of_rest rests.sound rests.still device busy

/-! ### The ingress warp -/

theorem ingress_idle {fetch : Queue.Fetch} (phase : system.ingress.phase = .fetch fetch) :
    ¬system.queue.Awaits system.ingress.taskHead := by
  intro awaits
  have waiting := rests.blocked (.ingress 0) trivial fun polls => polls.2 awaits
  unfold Blocked at waiting
  rw [phase] at waiting
  exact waiting rfl

/-- A lane of the ingress warp waits for the task that was in its slot before. -/
theorem ingress_waits {stopping : Bool} {taskCount : Nat} {lanes : Nat → FillLane}
    (phase : system.ingress.phase = .fill stopping taskCount lanes) :
    ∃ lane < taskCount, shape.copyWarps * shape.sharedQueueDepth ≤ system.ingress.taskHead + lane ∧
      ¬system.Taken
        (system.ingress.taskHead + lane - shape.copyWarps * shape.sharedQueueDepth) := by
  have filling := rests.sound.invariant.filling phase
  have busy := rests.sound.ingress
  unfold Ingress.Busy at busy
  rw [phase] at busy
  obtain ⟨lane, inside, undone⟩ := busy
  have waiting := rests.blocked (.ingress lane) trivial fun polls => by
    obtain ⟨⟨fetch, fetching⟩, -⟩ := polls
    rw [phase] at fetching
    cases fetching
  unfold Blocked at waiting
  rw [phase] at waiting
  obtain ⟨-, blocked⟩ := (waiting inside).resolve_left undone
  rw [filling.index_eq rests.sound.invariant inside, indexSlot_eq, indexPhase_eq] at blocked
  refine ⟨lane, inside, Classical.not_imp.mp fun previous => blocked ?_⟩
  exact rests.sound.invariant.tasks.writer_passes shape.warpsPos shape.depthPos
    (filling.unfilled undone) previous

/-! ### The copy warps -/

/-- What a copy warp waits for. -/
theorem copy_waits (warp : Fin shape.copyWarps) :
    (system.copyWarps warp).phase = .waitReady ∧ ¬system.Filled (system.current warp) ∨
      (∃ task, (system.copyWarps warp).phase = .waitConsumed task ∧
        shape.copyWarps * shape.sharedQueueDepth ≤ system.current warp ∧
          ¬system.Freed (system.current warp - shape.copyWarps * shape.sharedQueueDepth)) ∨
      (system.copyWarps warp).phase = .stopped := by
  have waiting := rests.blocked (.copy warp) trivial id
  have invariant := rests.sound.invariant
  unfold Blocked at waiting
  dsimp only at waiting
  cases phase : (system.copyWarps warp).phase with
  | waitReady =>
      rw [phase] at waiting
      dsimp only at waiting
      rw [slotIndex_eq, phase_current] at waiting
      refine .inl ⟨rfl, fun filled => waiting ?_⟩
      refine invariant.tasks.reader_passes shape.warpsPos shape.depthPos filled ?_
      exact not_below system warp CopyWarp.takenTo (by unfold CopyWarp.takenTo; rw [phase])
  | waitConsumed task =>
      rw [phase] at waiting
      dsimp only at waiting
      rw [slotIndex_eq, phase_current] at waiting
      refine .inr (.inl ⟨task, rfl, Classical.not_imp.mp fun previous => waiting ?_⟩)
      exact invariant.completions.writer_passes shape.warpsPos shape.depthPos
        (not_below system warp CopyWarp.localIndex rfl) previous
  | stopped => exact .inr (.inr rfl)
  | _ =>
      rw [phase] at waiting
      exact waiting.elim

/-! ### The egress warp -/

theorem egress_idle {fetch : Queue.Fetch} (phase : system.egress.phase = .fetch fetch) :
    ¬system.queue.Awaits system.egress.completionHead := by
  intro awaits
  have waiting := rests.blocked (.egress 0) trivial fun polls => polls.2 awaits
  unfold Blocked at waiting
  rw [phase] at waiting
  exact waiting rfl

/-- The egress warp waits for a task of its batch. -/
theorem egress_waits {completionCount : Nat} {lanes : Nat → CollectLane}
    (phase : system.egress.phase = .collect completionCount lanes) :
    ∃ lane < completionCount, ¬system.Done (system.egress.completionHead + lane) := by
  have invariant := rests.sound.invariant
  have busy := rests.sound.egress
  unfold Egress.Busy at busy
  rw [phase] at busy
  obtain ⟨lane, inside, undone⟩ := busy
  have known := invariant.egress.phase
  rw [phase] at known
  have batch : system.Batch completionCount := ⟨known.2.1.1, known.2.1.2⟩
  have waiting := rests.blocked (.egress lane) trivial fun polls => by
    obtain ⟨⟨fetch, fetching⟩, -⟩ := polls
    rw [phase] at fetching
    cases fetching
  unfold Blocked at waiting
  rw [phase] at waiting
  obtain ⟨-, blocked⟩ := (waiting inside).resolve_left undone
  rw [batch.index_eq invariant inside.le, indexSlot_eq, indexPhase_eq] at blocked
  refine ⟨lane, inside, fun done => blocked ?_⟩
  refine invariant.completions.reader_passes shape.warpsPos shape.depthPos done ?_
  unfold Freed Egress.Freed
  rw [phase]
  exact Nat.not_lt.mpr (Nat.le_add_right ..)

theorem not_releasing {completionCount : Nat} {stored : Bool} {arrived : Nat → Bool} :
    system.egress.phase ≠ .release completionCount stored arrived := by
  intro phase
  have busy := rests.sound.egress
  unfold Egress.Busy at busy
  rw [phase] at busy
  obtain ⟨lane, inside, waiting⟩ := busy
  have blocked := rests.blocked (.egress lane) trivial fun polls => by
    obtain ⟨⟨fetch, fetching⟩, -⟩ := polls
    rw [phase] at fetching
    cases fetching
  unfold Blocked at blocked
  rw [phase] at blocked
  exact Bool.false_ne_true (waiting.symm.trans (blocked inside))

/-! ### Everything is done -/

omit rests in
/-- A task that is not done while all before it are is the one its copy warp is at. -/
theorem current_of_first {index : Nat} (undone : ¬system.Done index)
    (before : ∀ other < index, system.Done other) :
    system.current (owner shape index) = index := by
  have reached := Nat.not_lt.mp undone
  have split := Nat.div_add_mod' index shape.copyWarps
  have below : system.current (owner shape index) ≤ index := by
    refine le_of_le_of_eq (Nat.add_le_add_right (Nat.mul_le_mul_right _ reached) _) ?_
    exact split
  refine le_antisymm below (Nat.not_lt.mp fun earlier => ?_)
  exact not_below system (owner shape index) CopyWarp.localIndex rfl (before _ earlier)

/-- The first task that is not done would be waited for by nobody. -/
theorem done {index : Nat} (published : index < system.queue.control.taskTail) :
    system.Done index := by
  have invariant := rests.sound.invariant
  induction index using Nat.strong_induction_on with
  | _ index induction =>
      have before : ∀ other < index, system.Done other := fun other earlier =>
        induction other earlier (earlier.trans published)
      by_contra undone
      have current := current_of_first undone before
      have tail := invariant.queue.tail_le
      rcases rests.copy_waits (owner shape index) with
        ⟨-, unfilled⟩ | ⟨task, -, far, unfreed⟩ | stopped
      · rw [current] at unfilled
        cases phase : system.ingress.phase with
        | fetch fetch =>
            refine rests.ingress_idle phase (.inl (lt_of_le_of_lt (Nat.not_lt.mp ?_) published))
            unfold Filled Ingress.Filled at unfilled
            rw [phase] at unfilled
            exact unfilled
        | fill stopping taskCount lanes =>
            have filling := invariant.filling phase
            obtain ⟨lane, inside, far, untaken⟩ := rests.ingress_waits phase
            have near := filling.near
            -- The slot that the lane waits for belongs to a task before the batch.
            have earlier : index ≤ system.ingress.taskHead + lane -
                shape.copyWarps * shape.sharedQueueDepth := by
              refine Nat.not_lt.mp fun less => untaken (taken_of_done (before _ less))
            rw [filled_of_phase phase] at unfilled
            exact unfilled (.inl (by omega))
        | stopped =>
            have known := invariant.ingress.phase
            rw [phase] at known
            apply unfilled
            unfold Filled Ingress.Filled
            rw [phase]
            exact Nat.lt_add_right _ (published.trans_le known.2)
      · rw [current] at far unfreed
        apply unfreed
        unfold Freed Egress.Freed
        have batch := shape.batch_le
        have slots := Nat.mul_pos shape.warpsPos shape.depthPos
        cases phase : system.egress.phase with
        | fetch fetch =>
            have idle := not_or.mp (rests.egress_idle phase)
            dsimp only
            omega
        | collect completionCount lanes =>
            have known := invariant.egress.phase
            rw [phase] at known
            have few := known.2.1.1
            obtain ⟨lane, inside, waiting⟩ := rests.egress_waits phase
            have later : index ≤ system.egress.completionHead + lane :=
              Nat.not_lt.mp fun less => waiting (before _ less)
            dsimp only
            omega
        | release completionCount stored arrived => exact absurd phase rests.not_releasing
        | stopped =>
            have known := invariant.egress.phase
            rw [phase] at known
            have final := known.1.2
            dsimp only
            omega
      · have fits := (invariant.warps (owner shape index)).phase
        rw [stopped, current] at fits
        have none := fits.2
        omega

theorem published : system.queue.control.completionTail = system.queue.control.taskTail := by
  have invariant := rests.sound.invariant
  obtain ⟨head, known⟩ := invariant.egress
  cases phase : system.egress.phase with
  | fetch fetch =>
      rw [phase] at known
      have idle := not_or.mp (rests.egress_idle phase)
      have same := known.2
      omega
  | collect completionCount lanes =>
      rw [phase] at known
      obtain ⟨lane, inside, undone⟩ := rests.egress_waits phase
      have below := known.2.1.2
      exact absurd (rests.done (by omega)) undone
  | release completionCount stored arrived => exact absurd phase rests.not_releasing
  | stopped =>
      rw [phase] at known
      have final := known.1.2
      have same := known.2
      omega

/-! ### Everyone has left -/

theorem egress_stopped (stop : system.queue.control.stopRequested ≠ 0) :
    system.egress.phase = .stopped := by
  have known := rests.sound.invariant.egress.phase
  cases phase : system.egress.phase with
  | fetch fetch => exact absurd (.inr stop) (rests.egress_idle phase)
  | collect completionCount lanes =>
      rw [phase] at known
      obtain ⟨lane, inside, undone⟩ := rests.egress_waits phase
      have below := known.2.1.2
      exact absurd (rests.done (by omega)) undone
  | release completionCount stored arrived => exact absurd phase rests.not_releasing
  | stopped => rfl

theorem ingress_stopped (stop : system.queue.control.stopRequested ≠ 0) :
    system.ingress.phase = .stopped := by
  have invariant := rests.sound.invariant
  cases phase : system.ingress.phase with
  | fetch fetch => exact absurd (.inr stop) (rests.ingress_idle phase)
  | fill stopping taskCount lanes =>
      have filling := invariant.filling phase
      have head := invariant.ingress.head
      obtain ⟨lane, inside, far, untaken⟩ := rests.ingress_waits phase
      have near := filling.near
      -- What the lane waits for is a task, and all tasks are taken.
      have published : system.ingress.taskHead + lane - shape.copyWarps * shape.sharedQueueDepth <
          system.queue.control.taskTail := by omega
      exact absurd (taken_of_done (rests.done published)) untaken
  | stopped => rfl

theorem copy_stopped (stop : system.queue.control.stopRequested ≠ 0)
    (warp : Fin shape.copyWarps) : (system.copyWarps warp).phase = .stopped := by
  have invariant := rests.sound.invariant
  have ingress := rests.ingress_stopped stop
  have known := invariant.ingress.phase
  rw [ingress] at known
  rcases rests.copy_waits warp with ⟨-, unfilled⟩ | ⟨task, phase, -, -⟩ | stopped
  · -- The warp has not gone past the task that stops it, because it makes no copy of that.
    have passed_ : system.ingress.taskHead + shape.copyWarps ≤ system.current warp := by
      refine Nat.not_lt.mp fun below => unfilled ?_
      unfold Filled Ingress.Filled
      rw [ingress]
      exact below
    have before : system.Done (system.current warp - shape.copyWarps) := by
      have far : shape.copyWarps ≤ system.current warp := by omega
      have owned : owner shape (system.current warp - shape.copyWarps) = warp :=
        Fin.ext ((Nat.mod_eq_sub_mod far).symm.trans (system.current_mod warp))
      have positive := Nat.div_pos far shape.warpsPos
      rw [current_div] at positive
      have step := Nat.sub_mul_div (system.current warp) shape.copyWarps 1
      rw [Nat.mul_one, current_div] at step
      unfold Done
      rw [owned, step]
      omega
    obtain ⟨copy, member, same⟩ := List.mem_map.mp
      (invariant.ledger.complete _ (copied_of_done before))
    have submitted := (List.getElem?_eq_some_iff.mp (invariant.ledger.sound copy member).2.1).1
    have final := invariant.queue.tail_of_stopped stop
    omega
  · have fits := (invariant.warps warp).phase
    rw [phase] at fits
    have submitted := (List.getElem?_eq_some_iff.mp (submitted_of_length
      (fits.1 ▸ fits.2 : (system.taskAt (system.current warp)).length ≠ 0))).1
    have final := invariant.queue.tail_of_stopped stop
    have undone := not_below system warp CopyWarp.localIndex rfl
    exact absurd (rests.done (by omega)) undone
  · exact stopped

end Rests

/-! ## Runs -/

/-- The warps come to rest, and then everything is done. -/
structure WorksOff (system : System shape) : Prop where
  /-- In no order of steps do the warps work for ever. -/
  halts : Halts (Advances Waits Works) system
  /-- When no warp has anything to do, all published tasks are answered. -/
  answered : ∀ last, Relation.ReflTransGen Runs system last → (∀ later, ¬Works last later) →
    last.queue.control.completionTail = system.queue.control.taskTail
  /-- After a request to stop, all warps have left. -/
  exits : ∀ last, Relation.ReflTransGen Runs system last → (∀ later, ¬Works last later) →
    system.queue.control.stopRequested ≠ 0 → last.ingress.phase = .stopped ∧
      (∀ warp, (last.copyWarps warp).phase = .stopped) ∧ last.egress.phase = .stopped

theorem Sound.rests {last : System shape} (sound : system.Sound)
    (steps : Relation.ReflTransGen Runs system last) (still : ∀ later, ¬Works last later) :
    last.Rests ∧ last.queue.control.taskTail = system.queue.control.taskTail ∧
      last.queue.control.stopRequested = system.queue.control.stopRequested := by
  obtain ⟨after, same⟩ := takesTurns.reaches sound steps
  exact ⟨⟨after, still⟩, Prod.mk.inj same⟩

/-- From every state that a run reaches, the warps work off what is published, in whatever order
they go on. -/
theorem pipeline_works_off (shape : Shape) (actions : List (Action shape))
    (bounded : (Execution.run step ({} : System shape) actions).queue.submitted.length +
      warpSpecializedMetaBatch ≤ 2 ^ 64) :
    (Execution.run step ({} : System shape) actions).WorksOff := by
  have sound := run_sound initial_sound bounded
  refine ⟨?_, fun last steps still => ?_, fun last steps still stop => ?_⟩
  · exact takesTurns.halts sound
  · obtain ⟨rests, tail, -⟩ := sound.rests steps still
    exact rests.published.trans tail
  · obtain ⟨rests, -, same⟩ := sound.rests steps still
    rw [← same] at stop
    exact ⟨rests.ingress_stopped stop, rests.copy_stopped stop, rests.egress_stopped stop⟩

/-- A stop is requested when the last task is submitted but not handed over yet. -/
def stopBehindLast : List (Action pair) :=
  fullBatch ++ submitOneMore ++ [.call .requestStop, .host]

theorem pipeline_works_off_reusedSlot :
    ∃ last, Relation.ReflTransGen Runs
        (Execution.run step ({} : System pair) stopBehindLast) last ∧
      last.queue.control.completionTail = 33 ∧ last.ingress.phase = .stopped ∧
        (∀ warp, (last.copyWarps warp).phase = .stopped) ∧ last.egress.phase = .stopped := by
  have worksOff := pipeline_works_off pair stopBehindLast (by decide +kernel)
  obtain ⟨last, steps, still⟩ := TakesTurns.exists_rest worksOff.halts
  exact ⟨last, steps, (worksOff.answered last steps still).trans (by decide +kernel),
    worksOff.exits last steps still (by decide +kernel)⟩

end System

end Ugdr.Gpu.Pipeline
