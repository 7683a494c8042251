import Ugdr.Gpu.WarpSpecializedKernelWork

/-! # Progress of the warp-specialised kernel

The first claimed task that is not answered is never the one that waits. So the warps come to
rest only when everything that is claimed is answered, and then everything is claimed unless all
copy warps have left before.
-/

namespace Ugdr.Gpu.WarpSpecializedKernel

open Machine Sequenced WarpSpecialized

/-! ## Waves -/

/-- A wave is over with its last lane. -/
def Ingress.Busy (shape : Shape) (ingress : Ingress) : Prop :=
  match ingress.phase with
  | .wave taskCount waveBase lanes => ∃ lane < taskCount,
      if lane < System.waveEnd shape taskCount waveBase then lanes lane ≠ .done
      else lanes lane = .read
  | _ => True

def Egress.Busy (shape : Shape) (egress : Egress) : Prop :=
  match egress.phase with
  | .collect completionCount waveBase lanes =>
      ∃ lane < System.waveEnd shape completionCount waveBase,
        waveBase ≤ lane ∧ (lanes lane).isHold = false
  | .free completionCount waveBase lanes =>
      ∃ lane < System.waveEnd shape completionCount waveBase,
        waveBase ≤ lane ∧ (lanes lane).isFreed = false
  | .write completionCount lanes => ∃ lane < completionCount, lanes lane ≠ .written
  | _ => True

namespace System

variable {shape : Shape} {system : System shape}

theorem busy_loaded (taskHead taskCount waveBase : Nat) (lanes : Nat → LoadLane) :
    (loaded shape taskHead taskCount waveBase lanes).Busy shape := by
  unfold loaded
  split_ifs with all
  · trivial
  · obtain ⟨lane, inside, unfinished⟩ := exists_of_not_all all
    refine ⟨lane, inside, ?_⟩
    split_ifs at unfinished ⊢ with wave
    · exact of_decide_eq_false unfinished
    · exact not_not.mp (of_decide_eq_false unfinished)

theorem busy_collected (completionHead : Nat) {completionCount waveBase : Nat}
    (lanes : Nat → CollectLane) (inside : waveBase < completionCount) :
    (collected shape completionHead completionCount waveBase lanes).Busy shape := by
  unfold collected
  split_ifs with all
  · have first := lt_waveEnd shape inside
    have own := of_decide_eq_true (List.all_eq_true.mp all waveBase (List.mem_range.mpr first))
    have held := own.resolve_left (Nat.lt_irrefl _)
    refine ⟨waveBase, first, Nat.le_refl _, ?_⟩
    cases state : lanes waveBase with
    | freed completion =>
        rw [state] at held
        cases held
    | _ => rfl
  · obtain ⟨lane, inside, unfinished⟩ := exists_of_not_all all
    obtain ⟨from_, open_⟩ := not_or.mp (of_decide_eq_false unfinished)
    exact ⟨lane, inside, Nat.not_lt.mp from_, Bool.eq_false_of_not_eq_true open_⟩

theorem busy_freed {completionHead completionCount waveBase : Nat} {lanes : Nat → CollectLane}
    (inside : waveBase < completionCount)
    (later : ∀ lane < completionCount, waveBase + shape.sharedQueueDepth ≤ lane →
      (lanes lane).isHold = false) (first : lanes 0 ≠ .written) :
    (System.freed shape completionHead completionCount waveBase lanes).Busy shape := by
  unfold System.freed
  split_ifs with all last
  · exact ⟨0, Nat.zero_lt_of_lt inside, first⟩
  · have more := Nat.not_le.mp last
    exact ⟨_, lt_waveEnd shape more, Nat.le_refl _, later _ more (Nat.le_refl _)⟩
  · obtain ⟨lane, within, unfinished⟩ := exists_of_not_all all
    obtain ⟨from_, open_⟩ := not_or.mp (of_decide_eq_false unfinished)
    exact ⟨lane, within, Nat.not_lt.mp from_, Bool.eq_false_of_not_eq_true open_⟩

theorem busy_written (completionHead completionCount : Nat) (lanes : Nat → CollectLane) :
    (written completionHead completionCount lanes).Busy shape := by
  unfold written
  split_ifs with all
  · trivial
  · obtain ⟨lane, inside, unfinished⟩ := exists_of_not_all all
    exact ⟨lane, inside, of_decide_eq_false unfinished⟩

theorem Invariant.busy_ingressStep (invariant : system.Invariant)
    (busy : system.ingress.Busy shape) (lane : Nat) :
    (system.ingressStep lane).ingress.Busy shape := by
  have known := invariant.ingress.phase
  unfold System.ingressStep
  dsimp only
  cases phase : system.ingress.phase with
  | fetch fetch =>
      dsimp only
      split_ifs
      · exact busy
      · cases fetched : system.queue.fetch system.ingress.taskHead fetch with
        | again next => trivial
        | batch taskCount =>
            have some_ := (invariant.queue.fetch_batch fetched).1
            refine ⟨0, some_, ?_⟩
            rw [if_pos (lt_waveEnd shape some_)]
            rintro ⟨⟩
        | stop => trivial
  | wave taskCount waveBase lanes =>
      rw [phase] at known
      dsimp only
      by_cases outside : taskCount ≤ lane
      · rw [if_pos outside]
        exact busy
      · rw [if_neg outside]
        have inside := Nat.not_le.mp outside
        have own := known.2 lane inside
        -- A lane of the wave goes on in it.
        have moved : ∀ next ≠ LoadLane.done, lane < waveEnd shape taskCount waveBase →
            Ingress.Busy shape
              { taskHead := system.ingress.taskHead
                phase := .wave taskCount waveBase (Function.update lanes lane next) } := by
          intro next undone wave
          refine ⟨lane, inside, ?_⟩
          rw [if_pos wave, Function.update_self]
          exact undone
        cases state : lanes lane with
        | read => exact busy_loaded _ _ _ _
        | wait task =>
            dsimp only
            split_ifs with passes
            · exact moved _ (by rintro ⟨⟩) passes.1
            · exact busy
        | write task =>
            rw [state] at own
            exact moved _ (by rintro ⟨⟩) own.1.2
        | store => exact busy_loaded _ _ _ _
        | done => exact busy
  | publish taskCount waveBase lanes =>
      rw [phase] at known
      dsimp only
      split_ifs with other last
      · exact busy
      · trivial
      · have more := Nat.not_le.mp last
        refine ⟨_, more, ?_⟩
        rw [if_pos (lt_waveEnd shape more)]
        intro done
        have fits := (known.2 _ more).1
        rw [done] at fits
        have early : waveBase + shape.sharedQueueDepth < waveEnd shape taskCount waveBase := fits
        exact Nat.not_lt.mpr (waveEnd_near shape taskCount waveBase) early
  | storeDone =>
      dsimp only
      split_ifs
      · exact busy
      · trivial
  | stopped => exact busy

theorem Invariant.busy_egressStep (invariant : system.Invariant) (busy : system.egress.Busy shape)
    (lane : Nat) : (system.egressStep lane).egress.Busy shape := by
  have known := invariant.egress.phase
  unfold System.egressStep
  dsimp only
  cases phase : system.egress.phase with
  | fetch fetch =>
      dsimp only
      split_ifs
      · exact busy
      · cases fetched : system.queue.fetch system.egress.completionHead fetch with
        | again next => trivial
        | batch completionCount =>
            have some_ := (invariant.queue.fetch_batch fetched).1
            exact ⟨0, lt_waveEnd shape some_, Nat.le_refl 0, rfl⟩
        | stop => trivial
  | collect completionCount waveBase lanes =>
      rw [phase] at known
      dsimp only
      by_cases outside : lane < waveBase ∨ waveEnd shape completionCount waveBase ≤ lane
      · rw [if_pos outside]
        exact busy
      · rw [if_neg outside]
        cases lanes lane with
        | wait =>
            dsimp only
            split_ifs
            · refine ⟨lane, by omega, by omega, ?_⟩
              rw [Function.update_self]
              rfl
            · exact busy
        | read => exact busy_collected _ _ known.1.inside
        | _ => exact busy
  | free completionCount waveBase lanes =>
      rw [phase] at known
      have near := waveEnd_near shape completionCount waveBase
      dsimp only
      by_cases outside : lane < waveBase ∨ waveEnd shape completionCount waveBase ≤ lane
      · rw [if_pos outside]
        exact busy
      · rw [if_neg outside]
        cases state : lanes lane with
        | hold completion =>
            refine busy_freed known.1.inside (fun other inside beyond => ?_) ?_
            · rw [Function.update_of_ne (by omega)]
              have fits := (known.2 other inside).1
              cases otherState : lanes other with
              | hold completion =>
                  rw [otherState] at fits
                  have early := fits.1.2
                  omega
              | _ => rfl
            · rw [Function.update_apply]
              split_ifs
              · rintro ⟨⟩
              · intro wrote
                have fits := (known.2 0 (Nat.zero_lt_of_lt known.1.inside)).1
                rw [wrote] at fits
                exact fits
        | _ => exact busy
  | write completionCount lanes =>
      dsimp only
      by_cases outside : completionCount ≤ lane
      · rw [if_pos outside]
        exact busy
      · rw [if_neg outside]
        cases lanes lane with
        | freed completion => exact busy_written _ _ _
        | _ => exact busy
  | storeTail completionCount =>
      dsimp only
      split_ifs
      · exact busy
      · trivial
  | stopped => exact busy

/-! ## Sound systems -/

/-- What every step keeps. -/
structure Sound (system : System shape) : Prop where
  invariant : system.Invariant
  ingress : system.ingress.Busy shape
  egress : system.egress.Busy shape
  /-- The copy warps can see that the ingress warp has left. -/
  done : system.ingress.phase = .stopped → system.control.ingressDone ≠ 0

theorem initial_sound : Sound ({} : System shape) :=
  ⟨initial_invariant, trivial, trivial, fun stopped => by cases stopped⟩

theorem done_ingressStep (system : System shape)
    (done : system.ingress.phase = .stopped → system.control.ingressDone ≠ 0) (lane : Nat) :
    (system.ingressStep lane).ingress.phase = .stopped →
      (system.ingressStep lane).control.ingressDone ≠ 0 := by
  unfold System.ingressStep
  dsimp only
  cases phase : system.ingress.phase with
  | fetch fetch =>
      dsimp only
      split_ifs
      · exact done
      · cases system.queue.fetch system.ingress.taskHead fetch <;> exact fun stopped => by
          cases stopped
  | wave taskCount waveBase lanes =>
      have going : ∀ lanes, (loaded shape system.ingress.taskHead taskCount waveBase lanes).phase ≠
          .stopped := by
        intro lanes
        unfold loaded
        split_ifs <;> rintro ⟨⟩
      dsimp only
      by_cases outside : taskCount ≤ lane
      · rw [if_pos outside]
        exact done
      · rw [if_neg outside]
        cases lanes lane with
        | read => exact fun stopped => absurd stopped (going _)
        | wait task =>
            dsimp only
            split_ifs
            · exact fun stopped => by cases stopped
            · exact done
        | write task => exact fun stopped => by cases stopped
        | store => exact fun stopped => absurd stopped (going _)
        | done => exact done
  | publish taskCount waveBase lanes =>
      dsimp only
      split_ifs
      · exact done
      · exact fun stopped => by cases stopped
      · exact fun stopped => by cases stopped
  | storeDone =>
      dsimp only
      split_ifs
      · exact done
      · exact fun _ => Nat.one_ne_zero
  | stopped => exact done

theorem Sound.step (sound : system.Sound) (action : Action shape)
    (bounded : (System.step system action).queue.submitted.length + warpSpecializedMetaBatch ≤
      2 ^ 64) : (System.step system action).Sound := by
  have invariant := sound.invariant.step action bounded
  cases action with
  | call call => exact ⟨invariant, sound.ingress, sound.egress, sound.done⟩
  | host => exact ⟨invariant, sound.ingress, sound.egress, sound.done⟩
  | ingress lane =>
      have kept := system.ingressStep_keeps lane
      exact ⟨invariant, sound.invariant.busy_ingressStep sound.ingress lane,
        (congrArg (Egress.Busy shape) kept.egress).mpr sound.egress,
        done_ingressStep system sound.done lane⟩
  | copy warp =>
      have kept := system.copyStep_keeps warp
      refine ⟨invariant, (congrArg (Ingress.Busy shape) kept.ingress).mpr sound.ingress,
        (congrArg (Egress.Busy shape) kept.egress).mpr sound.egress, fun stopped => ?_⟩
      have still := sound.done ((congrArg Ingress.phase kept.ingress).symm.trans stopped)
      exact fun none => still (kept.done.symm.trans none)
  | egress lane =>
      have kept := system.egressStep_keeps lane
      refine ⟨invariant, (congrArg (Ingress.Busy shape) kept.ingress).mpr sound.ingress,
        sound.invariant.busy_egressStep sound.egress lane, fun stopped => ?_⟩
      have still := sound.done ((congrArg Ingress.phase kept.ingress).symm.trans stopped)
      exact fun none => still ((congrArg SharedControl.ingressDone kept.control).symm.trans none)

theorem run_sound {actions : List (Action shape)} (sound : system.Sound)
    (bounded : (Execution.run System.step system actions).queue.submitted.length +
      warpSpecializedMetaBatch ≤ 2 ^ 64) :
    (Execution.run System.step system actions).Sound :=
  Execution.run_invariant_below
    (fun system => system.queue.submitted.length + warpSpecializedMetaBatch)
    (fun system action => Nat.add_le_add_right (length_submitted_step system action) _)
    (fun _ action bounded sound => Sound.step sound action bounded) sound bounded

/-! ## Steps of the device -/

/-- A step of a warp. -/
def Runs : System shape → System shape → Prop :=
  Turns System.step Action.onDevice

theorem Sound.deviceStep (sound : system.Sound) {action : Action shape}
    (device : action.onDevice) : (System.step system action).Sound ∧
      (System.step system action).queue.published = system.queue.published := by
  have bounded := sound.invariant.queue.bounded
  cases action with
  | call call => exact device.elim
  | host => exact device.elim
  | ingress lane =>
      have same := (system.ingressStep_keeps lane).queue
      refine ⟨sound.step _ ?_, congrArg Queue.published same⟩
      exact (congrArg (·.submitted.length + warpSpecializedMetaBatch) same).trans_le bounded
  | copy warp =>
      have same := (system.copyStep_keeps warp).queue
      refine ⟨sound.step _ ?_, congrArg Queue.published same⟩
      exact (congrArg (·.submitted.length + warpSpecializedMetaBatch) same).trans_le bounded
  | egress lane =>
      have kept := system.egressStep_keeps lane
      refine ⟨sound.step _ ?_, Prod.ext kept.tail kept.stop⟩
      exact (congrArg (·.length + warpSpecializedMetaBatch) kept.submitted).trans_le bounded

theorem takesTurns : TakesTurns (step : System shape → Action shape → System shape)
    Action.onDevice Polls Blocked Sound (fun system => system.queue.published) work where
  kept := fun sound device => sound.deviceStep device
  vain := fun sound polls => sound.invariant.work_polls polls
  progress := fun sound device busy => sound.invariant.work_step device busy

/-! ## Rest -/

/-- No warp has anything to do. -/
structure Rests (system : System shape) : Prop where
  sound : system.Sound
  still : ∀ later, ¬Works system later

namespace Rests

variable (rests : system.Rests)

include rests

theorem blocked (action : Action shape) (device : action.onDevice)
    (busy : ¬system.Polls action) : system.Blocked action :=
  takesTurns.blocked_of_rest rests.sound rests.still device busy

/-! ### The ingress warp -/

theorem ingress_idle {fetch : Queue.Fetch} (phase : system.ingress.phase = .fetch fetch) :
    ¬system.queue.Awaits system.ingress.taskHead := by
  intro awaits
  have waiting := rests.blocked (.ingress 0) trivial fun polls => polls.2 awaits
  unfold Blocked at waiting
  rw [phase] at waiting
  exact waiting rfl

theorem ingress_blocked (lane : Nat) (busy : ∀ fetch, system.ingress.phase ≠ .fetch fetch) :
    system.Blocked (.ingress lane) :=
  rests.blocked (.ingress lane) trivial fun polls => polls.1.elim fun fetch => busy fetch

theorem not_publishing {taskCount waveBase : Nat} {lanes : Nat → LoadLane} :
    system.ingress.phase ≠ .publish taskCount waveBase lanes := by
  intro phase
  have waiting := rests.ingress_blocked 0 (by rw [phase]; rintro fetch ⟨⟩)
  unfold Blocked at waiting
  rw [phase] at waiting
  exact waiting rfl

theorem not_storing : system.ingress.phase ≠ .storeDone := by
  intro phase
  have waiting := rests.ingress_blocked 0 (by rw [phase]; rintro fetch ⟨⟩)
  unfold Blocked at waiting
  rw [phase] at waiting
  exact waiting rfl

/-- A lane of a wave waits for the task that was in its slot before. -/
theorem ingress_waits {taskCount waveBase : Nat} {lanes : Nat → LoadLane}
    (phase : system.ingress.phase = .wave taskCount waveBase lanes) :
    ∃ index < system.ingress.published, index < system.queue.control.taskTail ∧
      ¬Taken shape.sharedQueueDepth system.sharedTasks index := by
  have invariant := rests.sound.invariant
  have known := invariant.ingress.phase
  rw [phase] at known
  have waving : system.Waving taskCount waveBase lanes := ⟨phase, known.1, known.2⟩
  have below := waving.batch.below
  have busy := rests.sound.ingress
  unfold Ingress.Busy at busy
  rw [phase] at busy
  obtain ⟨lane, inside, unfinished⟩ := busy
  have waiting := rests.ingress_blocked lane (by rw [phase]; rintro fetch ⟨⟩)
  unfold Blocked at waiting
  rw [phase] at waiting
  have waiting := waiting inside
  by_cases wave : lane < waveEnd shape taskCount waveBase
  · rw [if_pos wave] at unfinished
    obtain ⟨task, -, blocked⟩ := waiting.resolve_left unfinished
    rw [waving.index_eq invariant inside, sharedSlot_eq] at blocked
    have previous := Classical.not_imp.mp fun previous => blocked ⟨wave,
      invariant.tasks.open_of_taken shape.depthPos
        (fun filled => waving.not_handed unfinished ((invariant.handed _).mp filled)) previous⟩
    have near := waveEnd_near shape taskCount waveBase
    rw [waving.published_eq]
    exact ⟨_, by omega, by omega, previous.2⟩
  · rw [if_neg wave] at unfinished
    rw [unfinished] at waiting
    rcases waiting with done | ⟨task, state, -⟩
    · cases done
    · cases state

/-! ### The copy warps -/

/-- A copy warp waits for a task to be handed over, or for the completion that was in its slot
before to be collected. -/
theorem copy_waits {warp : Fin shape.copyWarps}
    (working : (system.copyWarps warp).phase.working = true) :
    (system.copyWarps warp).phase = .waitTask ∧ ¬Full shape.sharedQueueDepth system.sharedTasks
        (system.copyWarps warp).answeredTo ∨
      shape.sharedQueueDepth ≤ (system.copyWarps warp).answeredTo ∧
        ¬Taken shape.sharedQueueDepth system.sharedCompletions
          ((system.copyWarps warp).answeredTo - shape.sharedQueueDepth) := by
  have invariant := rests.sound.invariant
  have waiting := rests.blocked (.copy warp) trivial fun polls =>
    Bool.false_ne_true (polls.1.1.symm.trans working)
  have depth := shape.depthPos
  unfold Blocked at waiting
  dsimp only at waiting
  rw [invariant.index_eq working, sharedSlot_eq, invariant.sequence_eq working (by omega)]
    at waiting
  cases phase : (system.copyWarps warp).phase with
  | waitTask =>
      rw [phase] at waiting
      exact .inl ⟨rfl, waiting⟩
  | waitCompletion task =>
      rw [phase] at waiting
      refine .inr (Classical.not_imp.mp fun previous => waiting ?_)
      refine invariant.completions.open_of_taken shape.depthPos (fun filled => ?_) previous
      exact not_past system warp CopyWarp.answeredTo rfl (invariant.holds_of_working working)
        ((invariant.answered _).mp filled)
  | stopped =>
      rw [phase] at working
      cases working
  | _ =>
      rw [phase] at waiting
      exact waiting.elim

/-! ### The egress warp -/

theorem egress_idle {fetch : Queue.Fetch} (phase : system.egress.phase = .fetch fetch) :
    ¬system.queue.Awaits system.egress.completionHead := by
  intro awaits
  have waiting := rests.blocked (.egress 0) trivial fun polls => polls.2 awaits
  unfold Blocked at waiting
  rw [phase] at waiting
  exact waiting rfl

theorem egress_blocked (lane : Nat) (busy : ∀ fetch, system.egress.phase ≠ .fetch fetch) :
    system.Blocked (.egress lane) :=
  rests.blocked (.egress lane) trivial fun polls => polls.1.elim fun fetch => busy fetch

/-- A lane of a wave waits for its completion. -/
theorem egress_waits {completionCount waveBase : Nat} {lanes : Nat → CollectLane}
    (phase : system.egress.phase = .collect completionCount waveBase lanes) :
    ∃ lane < waveEnd shape completionCount waveBase,
      ¬Filled shape.sharedQueueDepth system.sharedCompletions
        (system.egress.completionHead + lane) := by
  have invariant := rests.sound.invariant
  have known := invariant.egress.phase
  rw [phase] at known
  obtain ⟨batch, fits⟩ := known
  have busy := rests.sound.egress
  unfold Egress.Busy at busy
  rw [phase] at busy
  obtain ⟨lane, wave, from_, unheld⟩ := busy
  have ends := waveEnd_le shape completionCount waveBase
  have inside : lane < completionCount := by omega
  have own := fits lane inside
  have depth := shape.depthPos
  have waiting := rests.egress_blocked lane (by rw [phase]; rintro fetch ⟨⟩)
  unfold Blocked at waiting
  rw [phase] at waiting
  dsimp only at waiting
  rw [batch.index_eq invariant inside.le, sharedSlot_eq,
    batch.sequence_eq invariant inside (by omega)] at waiting
  refine ⟨lane, wave, fun filled => ?_⟩
  rcases waiting from_ wave with ⟨state, empty⟩ | held | given | wrote
  · refine empty (invariant.completions.full_of_filled shape.depthPos filled fun taken => ?_)
    rcases (freed_collecting (.inl phase) _).mp ((invariant.freed _).mp taken) with
      early | ⟨-, given⟩
    · omega
    · rw [Nat.add_sub_cancel_left, state] at given
      cases given
  · rw [unheld] at held
    cases held
  · have before := own.2 given
    omega
  · have fit := own.1
    rw [wrote] at fit
    exact fit

theorem not_freeing {completionCount waveBase : Nat} {lanes : Nat → CollectLane} :
    system.egress.phase ≠ .free completionCount waveBase lanes := by
  intro phase
  have known := rests.sound.invariant.egress.phase
  rw [phase] at known
  have busy := rests.sound.egress
  unfold Egress.Busy at busy
  rw [phase] at busy
  obtain ⟨lane, wave, from_, kept⟩ := busy
  have ends := waveEnd_le shape completionCount waveBase
  have waiting := rests.egress_blocked lane (by rw [phase]; rintro fetch ⟨⟩)
  unfold Blocked at waiting
  rw [phase] at waiting
  rcases (known.2 lane (by omega)).2 wave with given | held
  · exact Bool.false_ne_true (kept.symm.trans given)
  · exact Bool.false_ne_true ((waiting from_ wave).symm.trans held)

theorem not_writing {completionCount : Nat} {lanes : Nat → CollectLane} :
    system.egress.phase ≠ .write completionCount lanes := by
  intro phase
  have known := rests.sound.invariant.egress.phase
  rw [phase] at known
  have busy := rests.sound.egress
  unfold Egress.Busy at busy
  rw [phase] at busy
  obtain ⟨lane, inside, unwritten⟩ := busy
  have waiting := rests.egress_blocked lane (by rw [phase]; rintro fetch ⟨⟩)
  unfold Blocked at waiting
  rw [phase] at waiting
  have own := known.2 lane inside
  have still := waiting inside
  cases state : lanes lane with
  | freed completion =>
      rw [state] at still
      cases still
  | written => exact unwritten state
  | _ =>
      rw [state] at own
      exact own

theorem not_publishing_tail {completionCount : Nat} :
    system.egress.phase ≠ .storeTail completionCount := by
  intro phase
  have waiting := rests.egress_blocked 0 (by rw [phase]; rintro fetch ⟨⟩)
  unfold Blocked at waiting
  rw [phase] at waiting
  exact waiting rfl

/-! ### Claimed tasks -/

/-- The egress warp has given back the slot of a task behind which everything is answered. -/
theorem freed_near {index : Nat} (known : index < system.queue.control.taskTail)
    (before : ∀ other < index, Filled shape.sharedQueueDepth system.sharedCompletions other)
    (far : shape.sharedQueueDepth ≤ index) :
    Taken shape.sharedQueueDepth system.sharedCompletions (index - shape.sharedQueueDepth) := by
  have invariant := rests.sound.invariant
  have fits := invariant.egress.phase
  rw [invariant.freed]
  cases phase : system.egress.phase with
  | fetch fetch =>
      have idle := not_or.mp (rests.egress_idle phase)
      unfold Egress.Freed
      rw [phase]
      dsimp only
      omega
  | collect completionCount waveBase lanes =>
      rw [phase] at fits
      obtain ⟨lane, wave, waiting⟩ := rests.egress_waits phase
      have later : index ≤ system.egress.completionHead + lane :=
        Nat.not_lt.mp fun less => waiting (before _ less)
      have near := waveEnd_near shape completionCount waveBase
      have inside := fits.1.inside
      rw [freed_collecting (.inl phase)]
      by_cases early : index - shape.sharedQueueDepth < system.egress.completionHead
      · exact .inl early
      · refine .inr ⟨by omega, ?_⟩
        exact (fits.2 _ (by omega)).1.freed_of_lt (by omega)
  | free completionCount waveBase lanes => exact absurd phase rests.not_freeing
  | write completionCount lanes => exact absurd phase rests.not_writing
  | storeTail completionCount => exact absurd phase rests.not_publishing_tail
  | stopped =>
      rw [phase] at fits
      have final := fits.2
      unfold Egress.Freed
      rw [phase]
      dsimp only
      omega

/-- The first claimed task that is not answered would be waited for by nobody. -/
theorem answered {index : Nat} (claimed : index < system.control.taskClaim) :
    Filled shape.sharedQueueDepth system.sharedCompletions index := by
  have invariant := rests.sound.invariant
  induction index using Nat.strong_induction_on with
  | _ index induction =>
      have before : ∀ other < index,
          Filled shape.sharedQueueDepth system.sharedCompletions other :=
        fun other earlier => induction other earlier (earlier.trans claimed)
      by_contra unanswered
      obtain ⟨warp, holds⟩ : ∃ warp, (system.copyWarps warp).Holds index := by
        by_contra none
        refine unanswered ((invariant.answered index).mpr ⟨claimed, fun warp => ?_⟩)
        have free := not_exists.mp none warp
        unfold CopyWarp.Holds at free
        omega
      have working : (system.copyWarps warp).phase.working = true := by
        by_contra idle
        have all := (invariant.warps warp).idle (Bool.eq_false_of_not_eq_true idle)
        have from_ : (system.copyWarps warp).taskBase + (system.copyWarps warp).batchIndex ≤
          index := holds.1
        have below : index < (system.copyWarps warp).taskBase +
          (system.copyWarps warp).taskCount := holds.2
        omega
      have here := invariant.holds_of_working working
      have current : (system.copyWarps warp).answeredTo = index := by
        refine le_antisymm holds.1 (Nat.not_lt.mp fun earlier => ?_)
        exact not_past system warp CopyWarp.answeredTo rfl here
          ((invariant.answered _).mp (before _ earlier))
      rcases rests.copy_waits working with ⟨phase, empty⟩ | ⟨far, untaken⟩
      · -- What is claimed is published, so it is handed over.
        have filled := (invariant.handed _).mpr (invariant.handed_of_published
          (Nat.lt_of_lt_of_le claimed invariant.claimed))
        rw [current] at empty
        refine empty (invariant.tasks.full_of_filled shape.depthPos filled fun taken => ?_)
        rw [← current] at taken
        refine not_past system warp CopyWarp.takenTo ?_ here ((invariant.taken _).mp taken)
        unfold CopyWarp.takenTo
        rw [phase]
        rfl
      · rw [current] at far untaken
        exact untaken (rests.freed_near (invariant.known_of_claimed claimed) before far)

theorem taken {index : Nat} (claimed : index < system.control.taskClaim) :
    Taken shape.sharedQueueDepth system.sharedTasks index := by
  have invariant := rests.sound.invariant
  have past := (invariant.answered index).mp (rests.answered claimed)
  exact (invariant.taken index).mpr (past.mono CopyWarp.answeredTo_le_takenTo)

/-- A copy warp that has not left finds nothing. -/
theorem copy_idle {warp : Fin shape.copyWarps} (going : (system.copyWarps warp).phase ≠ .stopped) :
    ¬system.control.Awaits := by
  have invariant := rests.sound.invariant
  have looking : (system.copyWarps warp).phase.working = false := by
    by_contra working
    have holds := invariant.holds_of_working (Bool.eq_true_of_not_eq_false working)
    have claimed := Nat.lt_of_lt_of_le holds.2 (invariant.warps warp).within
    exact not_past system warp CopyWarp.answeredTo rfl holds
      ((invariant.answered _).mp (rests.answered claimed))
  intro awaits
  have waiting := rests.blocked (.copy warp) trivial fun polls => polls.2 awaits
  unfold Blocked at waiting
  dsimp only at waiting
  cases phase : (system.copyWarps warp).phase with
  | stopped => exact going phase
  | loadClaim =>
      rw [phase] at waiting
      exact waiting
  | loadPublish taskClaim =>
      rw [phase] at waiting
      exact waiting
  | loadDone taskClaim taskPublish =>
      rw [phase] at waiting
      exact waiting
  | claim taskClaim count =>
      rw [phase] at waiting
      exact waiting
  | _ =>
      rw [phase] at looking
      cases looking

/-! ### All tasks -/

/-- When everything published is claimed, the ingress warp has published everything. -/
theorem published_all (claimed : system.control.taskPublish ≤ system.control.taskClaim) :
    system.queue.control.taskTail ≤ system.control.taskPublish := by
  have invariant := rests.sound.invariant
  have known := invariant.ingress.phase
  rw [invariant.published] at claimed ⊢
  cases phase : system.ingress.phase with
  | fetch fetch =>
      have idle := not_or.mp (rests.ingress_idle phase)
      unfold Ingress.published
      rw [phase]
      exact Nat.not_lt.mp idle.1
  | wave taskCount waveBase lanes =>
      obtain ⟨index, below, -, untaken⟩ := rests.ingress_waits phase
      exact absurd (rests.taken (by omega)) untaken
  | publish taskCount waveBase lanes => exact absurd phase rests.not_publishing
  | storeDone => exact absurd phase rests.not_storing
  | stopped =>
      rw [phase] at known
      unfold Ingress.published
      rw [phase]
      exact known.2

/-- When everything is claimed, the egress warp has published everything. -/
theorem answered_all (claimed : system.queue.control.taskTail ≤ system.control.taskClaim) :
    system.queue.control.completionTail = system.queue.control.taskTail := by
  have invariant := rests.sound.invariant
  obtain ⟨head, published, known⟩ := invariant.egress
  cases phase : system.egress.phase with
  | fetch fetch =>
      have idle := not_or.mp (rests.egress_idle phase)
      omega
  | collect completionCount waveBase lanes =>
      rw [phase] at known
      obtain ⟨lane, wave, waiting⟩ := rests.egress_waits phase
      have ends := waveEnd_le shape completionCount waveBase
      have below := known.1.below
      exact absurd (rests.answered (by omega)) waiting
  | free completionCount waveBase lanes => exact absurd phase rests.not_freeing
  | write completionCount lanes => exact absurd phase rests.not_writing
  | storeTail completionCount => exact absurd phase rests.not_publishing_tail
  | stopped =>
      rw [phase] at known
      have final := known.2
      omega

theorem finished_or_left : system.queue.control.completionTail = system.queue.control.taskTail ∨
    (∀ warp, (system.copyWarps warp).phase = .stopped) ∧
      system.control.taskClaim < system.queue.control.taskTail := by
  by_cases left : ∀ warp, (system.copyWarps warp).phase = .stopped
  · by_cases unclaimed : system.control.taskClaim < system.queue.control.taskTail
    · exact .inr ⟨left, unclaimed⟩
    · exact .inl (rests.answered_all (Nat.not_lt.mp unclaimed))
  · obtain ⟨warp, going⟩ := not_forall.mp left
    have none := Nat.not_lt.mp (not_or.mp (rests.copy_idle going)).1
    exact .inl (rests.answered_all ((rests.published_all none).trans none))

/-! ### Everyone has left -/

section

variable (stop : system.queue.control.stopRequested ≠ 0)
  (finished : system.queue.control.completionTail = system.queue.control.taskTail)

include stop finished

theorem ingress_stopped : system.ingress.phase = .stopped := by
  have invariant := rests.sound.invariant
  cases phase : system.ingress.phase with
  | fetch fetch => exact absurd (.inr stop) (rests.ingress_idle phase)
  | wave taskCount waveBase lanes =>
      obtain ⟨index, -, below, untaken⟩ := rests.ingress_waits phase
      have answered := invariant.answered_of_tail (finished ▸ below)
      exact absurd (rests.taken ((invariant.answered index).mp answered).1) untaken
  | publish taskCount waveBase lanes => exact absurd phase rests.not_publishing
  | storeDone => exact absurd phase rests.not_storing
  | stopped => rfl

theorem copy_stopped (warp : Fin shape.copyWarps) : (system.copyWarps warp).phase = .stopped := by
  by_contra going
  have idle := not_or.mp (rests.copy_idle going)
  exact idle.2 (rests.sound.done (rests.ingress_stopped stop finished))

theorem egress_stopped : system.egress.phase = .stopped := by
  have invariant := rests.sound.invariant
  have known := invariant.egress.phase
  cases phase : system.egress.phase with
  | fetch fetch => exact absurd (.inr stop) (rests.egress_idle phase)
  | collect completionCount waveBase lanes =>
      rw [phase] at known
      obtain ⟨lane, wave, waiting⟩ := rests.egress_waits phase
      have ends := waveEnd_le shape completionCount waveBase
      have below := known.1.below
      exact absurd (invariant.answered_of_tail (by omega)) waiting
  | free completionCount waveBase lanes => exact absurd phase rests.not_freeing
  | write completionCount lanes => exact absurd phase rests.not_writing
  | storeTail completionCount => exact absurd phase rests.not_publishing_tail
  | stopped => rfl

end

end Rests

/-! ## Runs -/

/-- The warps come to rest. -/
structure WorksOff (system : System shape) : Prop where
  /-- In no order of steps do the warps work for ever. -/
  halts : Halts (Advances Waits Works) system
  /-- When no warp has anything to do, all published tasks are answered, unless all copy warps
  have left one behind. -/
  answered : ∀ last, Relation.ReflTransGen Runs system last → (∀ later, ¬Works last later) →
    last.queue.control.completionTail = system.queue.control.taskTail ∨
      (∀ warp, (last.copyWarps warp).phase = .stopped) ∧
        last.control.taskClaim < system.queue.control.taskTail
  /-- After a request to stop, all warps have left when all tasks are answered. -/
  exits : ∀ last, Relation.ReflTransGen Runs system last → (∀ later, ¬Works last later) →
    system.queue.control.stopRequested ≠ 0 →
      last.queue.control.completionTail = system.queue.control.taskTail →
        last.ingress.phase = .stopped ∧ (∀ warp, (last.copyWarps warp).phase = .stopped) ∧
          last.egress.phase = .stopped

theorem Sound.rests {last : System shape} (sound : system.Sound)
    (steps : Relation.ReflTransGen Runs system last) (still : ∀ later, ¬Works last later) :
    last.Rests ∧ last.queue.control.taskTail = system.queue.control.taskTail ∧
      last.queue.control.stopRequested = system.queue.control.stopRequested := by
  obtain ⟨after, same⟩ := takesTurns.reaches sound steps
  exact ⟨⟨after, still⟩, Prod.mk.inj same⟩

/-- From every state that a run reaches, the warps work off what is published, in whatever order
they go on, or the copy warps leave before that. -/
theorem claims_work_off (shape : Shape) (actions : List (Action shape))
    (bounded : (Execution.run step ({} : System shape) actions).queue.submitted.length +
      warpSpecializedMetaBatch ≤ 2 ^ 64) :
    (Execution.run step ({} : System shape) actions).WorksOff := by
  have sound := run_sound initial_sound bounded
  refine ⟨?_, fun last steps still => ?_, fun last steps still stop finished => ?_⟩
  · exact takesTurns.halts sound
  · obtain ⟨rests, tail, -⟩ := sound.rests steps still
    rw [← tail]
    exact rests.finished_or_left
  · obtain ⟨rests, tail, same⟩ := sound.rests steps still
    rw [← same] at stop
    rw [← tail] at finished
    exact ⟨rests.ingress_stopped stop finished, rests.copy_stopped stop finished,
      rests.egress_stopped stop finished⟩

theorem claims_work_off_three :
    ∃ last, Relation.ReflTransGen Runs
        (Execution.run step ({} : System pair) (submitThree ++ contend)) last ∧
      (last.queue.control.completionTail = 3 ∨
        (∀ warp, (last.copyWarps warp).phase = .stopped) ∧ last.control.taskClaim < 3) := by
  have worksOff := claims_work_off pair (submitThree ++ contend) (by decide +kernel)
  obtain ⟨last, steps, still⟩ := TakesTurns.exists_rest worksOff.halts
  have tail : (Execution.run step ({} : System pair)
      (submitThree ++ contend)).queue.control.taskTail = 3 := by
    decide +kernel
  have rest := worksOff.answered last steps still
  rw [tail] at rest
  exact ⟨last, steps, rest⟩

end System

end Ugdr.Gpu.WarpSpecializedKernel
