import Ugdr.Foundation.Workload
import Ugdr.Gpu.DynamicShardedRuns

/-! # Progress of the dynamic sharded queue

A warp waits for nobody. It goes on until its lane has no more tasks.
-/

namespace Ugdr.Gpu.DynamicSharded

open Machine LaneLogs

/-! ## The accesses of a warp -/

/-- Whether a warp looks for tasks. -/
def Phase.looks : Phase → Bool
  | .loadTail | .loadStop | .loadFinalTail => true
  | _ => false

namespace Warp

variable {taskTail stopRequested : Nat} {warp : Warp}

/-- There is something to find behind the last batch. -/
def Awaits (taskTail stopRequested : Nat) (warp : Warp) : Prop :=
  warp.taskHead < taskTail ∨ stopRequested ≠ 0

instance (taskTail stopRequested : Nat) (warp : Warp) :
    Decidable (Awaits taskTail stopRequested warp) :=
  inferInstanceAs (Decidable (_ ∨ _))

/-- The accesses before the warp finds it. -/
def lookWork (taskTail : Nat) (warp : Warp) : Nat :=
  match warp.phase with
  | .loadTail => if warp.taskHead < taskTail then 1 else 3
  | .loadStop => 2
  | .loadFinalTail => 1
  | _ => 0

/-- Each task that the warp has not begun is given nine accesses. -/
def work (taskTail stopRequested : Nat) (warp : Warp) : Nat :=
  match warp.phase with
  | .loadTail | .loadStop | .loadFinalTail =>
      9 * (taskTail - warp.taskHead) +
        if Awaits taskTail stopRequested warp then lookWork taskTail warp else 0
  | .readTask taskCount batchIndex =>
      9 * (taskTail - (warp.taskHead + taskCount)) + 3 * (taskCount - batchIndex) + 4
  | .copy taskCount batchIndex _ =>
      9 * (taskTail - (warp.taskHead + taskCount)) + 3 * (taskCount - batchIndex) + 3
  | .writeCompletion taskCount batchIndex _ =>
      9 * (taskTail - (warp.taskHead + taskCount)) + 3 * (taskCount - batchIndex) + 2
  | .storeTail taskCount => 9 * (taskTail - (warp.taskHead + taskCount)) + 4
  | .stopped => 0

theorem work_of_looks (looks : warp.phase.looks = true) : work taskTail stopRequested warp =
    9 * (taskTail - warp.taskHead) +
      if Awaits taskTail stopRequested warp then lookWork taskTail warp else 0 := by
  unfold work
  cases phase : warp.phase with
  | loadTail => rfl
  | loadStop => rfl
  | loadFinalTail => rfl
  | _ =>
      rw [phase] at looks
      cases looks

theorem lookWork_le : lookWork taskTail warp ≤ 3 := by
  unfold lookWork
  split
  · split_ifs <;> decide
  · decide
  · decide
  · decide

/-- A look brings the warp nearer to what it finds. -/
theorem work_look_lt {phase : Phase} (looks : warp.phase.looks = true)
    (also : phase.looks = true) (awaits : Awaits taskTail stopRequested warp)
    (less : lookWork taskTail { warp with phase } < lookWork taskTail warp) :
    work taskTail stopRequested { warp with phase } < work taskTail stopRequested warp := by
  have after : work taskTail stopRequested { warp with phase } = _ := work_of_looks also
  have still : Awaits taskTail stopRequested { warp with phase } := awaits
  rw [work_of_looks looks, after, if_pos awaits, if_pos still]
  exact Nat.add_lt_add_left less _

/-- A batch has less work than looking for it. -/
theorem work_begin_lt {taskCount : Nat} (looks : warp.phase.looks = true) (some_ : 0 < taskCount)
    (below : warp.taskHead + taskCount ≤ taskTail) :
    work taskTail stopRequested { warp with phase := .readTask taskCount 0 } <
      work taskTail stopRequested warp := by
  rw [work_of_looks looks]
  unfold work
  dsimp only
  omega

/-- A batch that is answered has more work left than looking for the next one. -/
theorem work_store_lt {taskCount : Nat} (here : warp.phase = .storeTail taskCount) :
    work taskTail stopRequested { taskHead := warp.taskHead + taskCount } <
      work taskTail stopRequested warp := by
  have few := @lookWork_le taskTail { taskHead := warp.taskHead + taskCount }
  have after : work taskTail stopRequested { taskHead := warp.taskHead + taskCount } = _ :=
    work_of_looks rfl
  have before : work taskTail stopRequested warp =
      9 * (taskTail - (warp.taskHead + taskCount)) + 4 := by
    unfold work
    rw [here]
  rw [after, before]
  split_ifs
  · exact Nat.add_lt_add_left (Nat.lt_succ_of_le few) _
  · exact Nat.add_lt_add_left (Nat.succ_pos 3) _

end Warp

namespace System

variable {shape : Shape} {system : System shape}

def work (system : System shape) : Nat :=
  ∑ lane ∈ Finset.range shape.laneCount,
    (system.warps lane).work (system.controls lane).taskTail (system.controls lane).stopRequested

/-! ## Waiting and working -/

/-- A warp looks for tasks when its lane has none and no stop is requested. -/
def Polls (system : System shape) (warp : Nat) : Prop :=
  (system.warps warp).phase.looks = true ∧ ¬(system.warps warp).Awaits
    (system.controls warp).taskTail (system.controls warp).stopRequested

/-- A step of a warp. -/
def Runs (system later : System shape) : Prop :=
  ∃ warp : Fin shape.laneCount, later = system.warpStep warp

/-- A step of a warp that changes nothing or looks in vain. -/
def Waits (system later : System shape) : Prop :=
  ∃ warp : Fin shape.laneCount, later = system.warpStep warp ∧
    (system.Polls warp ∨ later = system)

/-- Any other step of a warp. -/
def Works (system later : System shape) : Prop :=
  ∃ warp : Fin shape.laneCount, later = system.warpStep warp ∧ ¬system.Polls warp ∧
    later ≠ system

/-- What the warps leave to the host. -/
structure Frame (system later : System shape) : Prop where
  submitted : later.submitted = system.submitted
  polled : later.polled = system.polled
  taskTail : ∀ lane, (later.controls lane).taskTail = (system.controls lane).taskTail
  stopRequested : ∀ lane,
    (later.controls lane).stopRequested = (system.controls lane).stopRequested

theorem Frame.of_same {later : System shape} (submitted : later.submitted = system.submitted)
    (polled : later.polled = system.polled) (controls : later.controls = system.controls) :
    Frame system later :=
  ⟨submitted, polled, fun _ => controls ▸ rfl, fun _ => controls ▸ rfl⟩

theorem Frame.refl (system : System shape) : Frame system system :=
  Frame.of_same rfl rfl rfl

theorem Frame.trans {between later : System shape} (first : Frame system between)
    (second : Frame between later) : Frame system later where
  submitted := second.submitted.trans first.submitted
  polled := second.polled.trans first.polled
  taskTail := fun lane => (second.taskTail lane).trans (first.taskTail lane)
  stopRequested := fun lane => (second.stopRequested lane).trans (first.stopRequested lane)

theorem frame_warpStep (system : System shape) (warp : Nat) :
    Frame system (system.warpStep warp) := by
  have plain : ∀ {completionSlots copied warps},
      Frame system { system with completionSlots, copied, warps } :=
    Frame.of_same rfl rfl rfl
  unfold System.warpStep
  dsimp only
  cases (system.warps warp).phase with
  | loadTail =>
      dsimp only
      split_ifs <;> exact plain
  | loadFinalTail =>
      dsimp only
      split_ifs <;> exact plain
  | storeTail taskCount =>
      refine ⟨rfl, rfl, fun lane => ?_, fun lane => ?_⟩
      · dsimp only
        rw [Function.update_apply]
        split_ifs with same
        · rw [same]
        · rfl
      · dsimp only
        rw [Function.update_apply]
        split_ifs with same
        · rw [same]
        · rfl
  | stopped => exact Frame.refl system
  | _ => exact plain

theorem work_lt {later : System shape} {warp : Nat} {next : Warp}
    (inside : warp < shape.laneCount) (frame : Frame system later)
    (warps : later.warps = Function.update system.warps warp next)
    (less : next.work (system.controls warp).taskTail (system.controls warp).stopRequested <
      (system.warps warp).work (system.controls warp).taskTail
        (system.controls warp).stopRequested) : later.work < system.work := by
  unfold work
  refine Finset.sum_lt_sum (fun other _ => ?_) ⟨warp, Finset.mem_range.mpr inside, ?_⟩
  · rw [frame.taskTail, frame.stopRequested, warps, Function.update_apply]
    split_ifs with same
    · rw [same]
      exact less.le
    · exact Nat.le_refl _
  · rw [frame.taskTail, frame.stopRequested, warps, Function.update_self]
    exact less

theorem work_move_lt {warp : Nat} {phase : Phase} (inside : warp < shape.laneCount)
    (less : Warp.work (system.controls warp).taskTail (system.controls warp).stopRequested
      { system.warps warp with phase } < (system.warps warp).work
        (system.controls warp).taskTail (system.controls warp).stopRequested) :
    (system.move warp phase).work < system.work :=
  work_lt inside (Frame.of_same rfl rfl rfl) rfl less

namespace Invariant

variable (invariant : system.Invariant)

include invariant

theorem begin_work_lt {warp : Nat} (inside : warp < shape.laneCount)
    (looks : (system.warps warp).phase.looks = true)
    (some_ : (system.warps warp).taskHead < (system.controls warp).taskTail) :
    (system.move warp (.readTask (taskCount shape (system.warps warp).taskHead
      (system.controls warp).taskTail) 0)).work < system.work := by
  have fits := invariant.lanes warp inside
  have bounds := @taskCount_bounds shape _ _ some_ (lt_of_le_of_lt fits.tail fits.bounded)
  exact work_move_lt inside (Warp.work_begin_lt looks bounds.1 bounds.2)

/-- A warp that has not left makes progress. -/
theorem work_warpStep {warp : Nat} (inside : warp < shape.laneCount)
    (busy : ¬system.Polls warp) :
    (system.warps warp).phase = .stopped ∨ (system.warpStep warp).work < system.work := by
  have fits := invariant.lanes warp inside
  have begun : (system.warps warp).begunTo ≤ (system.controls warp).taskTail := fits.begun
  have phaseFits : (system.lane warp).PhaseFits (system.warps warp).phase := fits.phase
  have tail : (system.controls warp).taskTail < 2 ^ 64 :=
    lt_of_le_of_lt fits.tail fits.bounded
  have frame := system.frame_warpStep warp
  have awaits : (system.warps warp).phase.looks = true → (system.warps warp).Awaits
      (system.controls warp).taskTail (system.controls warp).stopRequested := by
    intro looks
    by_contra idle
    exact busy ⟨looks, idle⟩
  unfold System.warpStep at frame ⊢
  dsimp only at frame ⊢
  cases here : (system.warps warp).phase with
  | loadTail =>
      have looks : (system.warps warp).phase.looks = true := here ▸ rfl
      right
      dsimp only
      split_ifs with some_
      · exact invariant.begin_work_lt inside looks some_
      · refine work_move_lt inside (Warp.work_look_lt looks rfl (awaits looks) ?_)
        unfold Warp.lookWork
        rw [here]
        dsimp only
        rw [if_neg some_]
        exact Nat.lt_succ_self 2
  | loadStop =>
      have looks : (system.warps warp).phase.looks = true := here ▸ rfl
      right
      refine work_move_lt inside (Warp.work_look_lt looks ?_ (awaits looks) ?_)
      · split_ifs
        · rfl
        · rfl
      · unfold Warp.lookWork
        rw [here]
        by_cases stop : (system.controls warp).stopRequested ≠ 0
        · rw [if_pos stop]
          exact Nat.lt_succ_self 1
        · rw [if_neg stop]
          dsimp only
          rw [if_pos ((awaits looks).resolve_right stop)]
          exact Nat.lt_succ_self 1
  | loadFinalTail =>
      have looks : (system.warps warp).phase.looks = true := here ▸ rfl
      right
      dsimp only
      split_ifs with none_
      · refine work_move_lt inside ?_
        rw [Warp.work_of_looks looks, if_pos (awaits looks), Warp.lookWork, here]
        exact Nat.lt_of_lt_of_le Nat.zero_lt_one (Nat.le_add_left ..)
      · exact invariant.begin_work_lt inside looks (Nat.not_le.mp none_)
  | readTask taskCount batchIndex =>
      refine .inr (work_move_lt inside ?_)
      unfold Warp.work
      rw [here]
      exact Nat.lt_succ_self _
  | copy taskCount batchIndex task =>
      refine .inr (work_lt inside (Frame.of_same rfl rfl rfl) rfl ?_)
      unfold Warp.work
      rw [here]
      exact Nat.lt_succ_self _
  | writeCompletion taskCount batchIndex task =>
      rw [here] at phaseFits
      have less := phaseFits.1
      right
      dsimp only
      by_cases more : batchIndex + 1 < taskCount
      · rw [if_pos more]
        refine work_lt inside (Frame.of_same rfl rfl rfl) rfl ?_
        unfold Warp.work
        rw [here]
        dsimp only
        omega
      · rw [if_neg more]
        refine work_lt inside (Frame.of_same rfl rfl rfl) rfl ?_
        unfold Warp.work
        rw [here]
        dsimp only
        omega
  | storeTail taskCount =>
      unfold Warp.begunTo at begun
      rw [here] at begun frame
      dsimp only at begun frame ⊢
      refine .inr (work_lt inside frame rfl ?_)
      rw [wrapAdd_of_lt (by omega)]
      exact Warp.work_store_lt here
  | stopped => exact .inl rfl

theorem work_polls {warp : Nat} (inside : warp < shape.laneCount) (polls : system.Polls warp) :
    (system.warpStep warp).work = system.work := by
  obtain ⟨looks, idle⟩ := polls
  have phaseFits : (system.lane warp).PhaseFits (system.warps warp).phase :=
    (invariant.lanes warp inside).phase
  obtain ⟨none_, going⟩ := not_or.mp idle
  -- A look in vain is followed by another one.
  have stays : ∀ phase : Phase, phase.looks = true →
      (system.move warp phase).work = system.work := by
    intro phase also
    unfold System.move work
    refine Finset.sum_congr rfl fun other _ => ?_
    dsimp only
    rw [Function.update_apply]
    split_ifs with same
    · have after : Warp.work (system.controls warp).taskTail
          (system.controls warp).stopRequested { system.warps warp with phase } = _ :=
        Warp.work_of_looks also
      have still : ¬Warp.Awaits (system.controls warp).taskTail
          (system.controls warp).stopRequested { system.warps warp with phase } := idle
      rw [same, after, Warp.work_of_looks looks, if_neg idle, if_neg still]
    · rfl
  unfold System.warpStep
  dsimp only
  cases here : (system.warps warp).phase with
  | loadTail =>
      dsimp only
      rw [if_neg none_]
      exact stays _ rfl
  | loadStop =>
      dsimp only
      rw [if_neg going]
      exact stays _ rfl
  | loadFinalTail =>
      rw [here] at phaseFits
      exact absurd phaseFits going
  | stopped => rfl
  | _ =>
      rw [here] at looks
      cases looks

theorem waits {later : System shape} (waits : Waits system later) :
    later.Invariant ∧ later.work = system.work := by
  obtain ⟨warp, rfl, polls | same⟩ := waits
  · exact ⟨invariant.warpStep warp, invariant.work_polls warp.isLt polls⟩
  · rw [same]
    exact ⟨invariant, rfl⟩

theorem works {later : System shape} (works : Works system later) :
    later.Invariant ∧ later.work < system.work := by
  obtain ⟨warp, rfl, busy, moved⟩ := works
  refine ⟨invariant.warpStep warp,
    (invariant.work_warpStep warp.isLt busy).resolve_left fun stopped => ?_⟩
  apply moved
  unfold System.warpStep
  dsimp only
  rw [stopped]

end Invariant

/-! ## Rest -/

/-- No warp has anything to do. -/
structure Rests (system : System shape) : Prop where
  invariant : system.Invariant
  still : ∀ later, ¬Works system later

namespace Rests

variable (rests : system.Rests) {lane : Nat} (inside : lane < shape.laneCount)

include rests inside

/-- A warp has left, or looks in vain. -/
theorem idle : (system.warps lane).phase = .stopped ∨ system.Polls lane := by
  by_contra neither
  obtain ⟨going, busy⟩ := not_or.mp neither
  have less := (rests.invariant.work_warpStep inside busy).resolve_left going
  refine rests.still _ ⟨⟨lane, inside⟩, rfl, busy, fun same => ?_⟩
  have unchanged : system.warpStep lane = system := same
  rw [unchanged] at less
  exact Nat.lt_irrefl _ less

theorem taskHead : (system.warps lane).taskHead = (system.controls lane).taskTail := by
  have fits := rests.invariant.lanes lane inside
  have begun : (system.warps lane).begunTo ≤ (system.controls lane).taskTail := fits.begun
  have bounds : (system.warps lane).taskHead ≤ (system.warps lane).writtenTo ∧
      (system.warps lane).writtenTo ≤ (system.warps lane).copiedTo ∧
        (system.warps lane).copiedTo ≤ (system.warps lane).begunTo := fits.bounds
  refine Nat.le_antisymm (by omega) ?_
  rcases rests.idle inside with stopped | ⟨-, idle⟩
  · have phase : (system.lane lane).PhaseFits (system.warps lane).phase := fits.phase
    rw [stopped] at phase
    exact phase.2
  · exact Nat.not_lt.mp (not_or.mp idle).1

theorem stopped (stop : (system.controls lane).stopRequested ≠ 0) :
    (system.warps lane).phase = .stopped :=
  (rests.idle inside).resolve_right fun polls => polls.2 (.inr stop)

end Rests

/-! ## Runs -/

/-- A lane whose published tasks are all done. -/
structure Finished (system : System shape) (lane : Nat) : Prop where
  copied : ofLane lane system.copied =
    (ofLane lane system.submitted).take (system.controls lane).taskTail
  answered : (system.controls lane).completionTail = (system.controls lane).taskTail
  /-- The completions that are not polled yet are in their slots. -/
  stored : ∀ index, (ofLane lane system.polled).length ≤ index →
    index < (system.controls lane).taskTail → ∀ task,
      (ofLane lane system.submitted)[index]? = some task →
        system.completionSlots (slotIndex shape lane index) = completionOf task
  exits : (system.controls lane).stopRequested ≠ 0 → (system.warps lane).phase = .stopped

theorem Rests.finished (rests : system.Rests) {lane : Nat} (inside : lane < shape.laneCount) :
    system.Finished lane := by
  have fits := rests.invariant.lanes lane inside
  have begun : (system.warps lane).begunTo ≤ (system.controls lane).taskTail := fits.begun
  have bounds : (system.warps lane).taskHead ≤ (system.warps lane).writtenTo ∧
      (system.warps lane).writtenTo ≤ (system.warps lane).copiedTo ∧
        (system.warps lane).copiedTo ≤ (system.warps lane).begunTo := fits.bounds
  have head := rests.taskHead inside
  refine ⟨?_, ?_, fun index unpolled below task member => ?_, rests.stopped inside⟩
  · have all : (system.warps lane).copiedTo = (system.controls lane).taskTail := by omega
    have copied : ofLane lane system.copied =
        (ofLane lane system.submitted).take (system.warps lane).copiedTo := fits.copied
    rw [copied, all]
  · have answered : (system.controls lane).completionTail = (system.warps lane).taskHead :=
      fits.answered
    exact answered.trans head
  · have written : index < (system.warps lane).writtenTo := by omega
    rw [slotIndex_eq]
    exact fits.completionSlots index unpolled written task member

/-- The warps come to rest, and then everything is done. -/
structure WorksOff (system : System shape) : Prop where
  /-- In no order of steps do the warps work for ever. -/
  halts : Halts (Advances Waits Works) system
  /-- When no warp has anything to do, every lane is done with the tasks that were published. -/
  finishes : ∀ last, Relation.ReflTransGen Runs system last → (∀ later, ¬Works last later) →
    Frame system last ∧ ∀ lane < shape.laneCount, last.Finished lane

theorem Invariant.worksOff (invariant : system.Invariant) : system.WorksOff := by
  refine ⟨halts_of_work Invariant work Waits Works (fun _ _ holds => holds.waits)
    (fun _ _ holds => holds.works) invariant, fun last steps still => ?_⟩
  have kept : last.Invariant ∧ Frame system last := by
    clear still
    induction steps with
    | refl => exact ⟨invariant, Frame.refl system⟩
    | @tail between _ _ runs induction =>
        obtain ⟨warp, rfl⟩ := runs
        exact ⟨induction.1.warpStep warp, induction.2.trans (between.frame_warpStep warp)⟩
  exact ⟨kept.2, fun lane inside => Rests.finished ⟨kept.1, still⟩ inside⟩

/-- From every state that a run reaches, the warps work off what is published, in whatever order
they go on. -/
theorem sharded_works_off (shape : Shape) (actions : List (Action shape))
    (bounded : (Execution.run System.step ({} : System shape) actions).submitted.length <
      2 ^ 64) : (Execution.run System.step ({} : System shape) actions).WorksOff :=
  Invariant.worksOff (run_keeps initial_invariant bounded)

/-- A stop is requested of all lanes when two of them have a task in a slot that was used
before. -/
def stopBehindReuse : List (Action narrow) :=
  fillLanes ++ submitTwoMore ++ .call .requestStop :: List.replicate 4 .host

theorem sharded_works_off_reusedSlots :
    ∃ last, Relation.ReflTransGen Runs
        (Execution.run System.step ({} : System narrow) stopBehindReuse) last ∧
      (ofLane 0 last.copied).map CopyTask.taskId = [0, 4, 8] ∧
        ∀ lane < narrow.laneCount, (last.warps lane).phase = .stopped := by
  have worksOff := sharded_works_off narrow stopBehindReuse (by decide +kernel)
  obtain ⟨last, steps, still⟩ := worksOff.halts.exists_rest Runs
    (fun _ _ ⟨warp, same, _⟩ => ⟨warp, same⟩) fun _ _ ⟨warp, same, _⟩ => ⟨warp, same⟩
  obtain ⟨frame, finished⟩ := worksOff.finishes last steps still
  refine ⟨last, steps, ?_, fun lane inside => (finished lane inside).exits ?_⟩
  · rw [(finished 0 narrow.lanes_pos).copied, frame.submitted, frame.taskTail]
    decide +kernel
  · rw [frame.stopRequested]
    have all : ∀ lane < narrow.laneCount,
        ((Execution.run System.step {} stopBehindReuse).controls lane).stopRequested ≠ 0 := by
      decide +kernel
    exact all lane inside

end System

end Ugdr.Gpu.DynamicSharded
