import Ugdr.Foundation.Workload
import Ugdr.Gpu.StaticPartitionRuns

/-! # Progress of the static partition kernel

A warp waits for nobody. It goes on until it finds no more tasks of its partition.
-/

namespace Ugdr.Gpu.StaticPartition

open Machine

/-! ## The accesses of a warp -/

/-- Whether a warp looks for tasks. -/
def Phase.looks : Phase → Bool
  | .loadTail | .loadStop | .loadFinalTail => true
  | _ => false

namespace Control

/-- A warp has something to find behind its last batch. -/
def Awaits (control : Control) (ownedIndex : Nat) : Prop :=
  ownedIndex < control.taskTail ∨ control.stopRequested ≠ 0

instance (control : Control) (ownedIndex : Nat) : Decidable (control.Awaits ownedIndex) :=
  inferInstanceAs (Decidable (_ ∨ _))

/-- The accesses before the warp finds it. -/
def lookWork (control : Control) (ownedIndex : Nat) : Phase → Nat
  | .loadTail => if ownedIndex < control.taskTail then 1 else 3
  | .loadStop => 2
  | .loadFinalTail => 1
  | _ => 0

end Control

namespace Warp

variable {control : Control} {copyWarps : Nat} {warp : Warp}

/-- Each task that the warp has not loaded is given nine accesses. -/
def work (control : Control) (copyWarps : Nat) (warp : Warp) : Nat :=
  match warp.phase with
  | .loadTail | .loadStop | .loadFinalTail =>
      9 * (control.taskTail + copyWarps - warp.ownedIndex) +
        if control.Awaits warp.ownedIndex then control.lookWork warp.ownedIndex warp.phase else 0
  | .loadTask taskCount tasks =>
      9 * (control.taskTail + copyWarps - (warp.ownedIndex + taskCount * copyWarps)) +
        (taskCount - tasks.length) + 3 * taskCount + 4
  | .copy tasks batchIndex =>
      9 * (control.taskTail + copyWarps - (warp.ownedIndex + tasks.length * copyWarps)) +
        (tasks.length - batchIndex) + 2 * tasks.length + 4
  | .writeCompletion tasks lane =>
      9 * (control.taskTail + copyWarps - (warp.ownedIndex + tasks.length * copyWarps)) +
        2 * (tasks.length - lane) + 4
  | .publish tasks lane =>
      9 * (control.taskTail + copyWarps - (warp.ownedIndex + tasks.length * copyWarps)) +
        2 * (tasks.length - lane) + 3
  | .stopped => 0

theorem work_of_looks (looks : warp.phase.looks = true) : warp.work control copyWarps =
    9 * (control.taskTail + copyWarps - warp.ownedIndex) +
      if control.Awaits warp.ownedIndex then control.lookWork warp.ownedIndex warp.phase
      else 0 := by
  unfold work
  cases phase : warp.phase with
  | loadTail => rfl
  | loadStop => rfl
  | loadFinalTail => rfl
  | _ =>
      rw [phase] at looks
      cases looks

theorem work_le_of_looks (looks : warp.phase.looks = true) : warp.work control copyWarps ≤
    9 * (control.taskTail + copyWarps - warp.ownedIndex) + 3 := by
  have few : control.lookWork warp.ownedIndex warp.phase ≤ 3 := by
    unfold Control.lookWork
    split
    · split_ifs <;> decide
    · decide
    · decide
    · decide
  rw [work_of_looks looks]
  split_ifs <;> omega

/-- A look brings the warp nearer to what it finds. -/
theorem work_look_lt {phase : Phase} (looks : warp.phase.looks = true)
    (also : phase.looks = true) (awaits : control.Awaits warp.ownedIndex)
    (less : control.lookWork warp.ownedIndex phase <
      control.lookWork warp.ownedIndex warp.phase) :
    work control copyWarps { warp with phase } < warp.work control copyWarps := by
  have before : warp.work control copyWarps = _ := work_of_looks looks
  have after : work control copyWarps { warp with phase } = _ := work_of_looks also
  rw [before, after, if_pos awaits]
  dsimp only
  rw [if_pos awaits]
  exact Nat.add_lt_add_left less _

/-- A batch has less work than looking for it. -/
theorem work_start_lt {taskCount : Nat} (looks : warp.phase.looks = true) (some_ : 0 < taskCount)
    (positive : 0 < copyWarps)
    (near : warp.ownedIndex + taskCount * copyWarps < control.taskTail + copyWarps) :
    work control copyWarps { warp with phase := .loadTask taskCount [] } <
      warp.work control copyWarps := by
  have whole := Nat.le_mul_of_pos_right taskCount positive
  rw [work_of_looks looks]
  unfold work
  dsimp only
  rw [List.length_nil]
  omega

end Warp

namespace System

variable {shape : Shape} {system : System shape}

def work (system : System shape) : Nat :=
  ∑ warp, (system.warps warp).work system.control shape.copyWarps

/-! ## Waiting and working -/

/-- A warp looks for tasks when there are none and no stop is requested. -/
def Polls (system : System shape) (warp : Fin shape.copyWarps) : Prop :=
  (system.warps warp).phase.looks = true ∧ ¬system.control.Awaits (system.warps warp).ownedIndex

/-- A step of a warp. -/
def Runs (system later : System shape) : Prop :=
  ∃ warp, later = system.warpStep warp

/-- A step of a warp that changes nothing or looks in vain. -/
def Waits (system later : System shape) : Prop :=
  ∃ warp, later = system.warpStep warp ∧ (system.Polls warp ∨ later = system)

/-- Any other step of a warp. -/
def Works (system later : System shape) : Prop :=
  ∃ warp, later = system.warpStep warp ∧ ¬system.Polls warp ∧ later ≠ system

theorem work_lt {later : System shape} {warp : Fin shape.copyWarps} {next : Warp}
    (control : later.control = system.control)
    (warps : later.warps = Function.update system.warps warp next)
    (less : next.work system.control shape.copyWarps <
      (system.warps warp).work system.control shape.copyWarps) : later.work < system.work := by
  unfold work
  rw [control, warps]
  exact sum_update_lt _ (Warp.work system.control shape.copyWarps) system.warps
    (Finset.mem_univ warp) less

theorem work_move_lt {warp : Fin shape.copyWarps} {phase : Phase}
    (less : Warp.work system.control shape.copyWarps { system.warps warp with phase } <
      (system.warps warp).work system.control shape.copyWarps) :
    (system.move warp phase).work < system.work :=
  work_lt rfl rfl less

/-- A warp that has not left makes progress. -/
theorem Invariant.work_warpStep (invariant : system.Invariant) {warp : Fin shape.copyWarps}
    (busy : ¬system.Polls warp) :
    (system.warps warp).phase = .stopped ∨ (system.warpStep warp).work < system.work := by
  have known := (invariant.warps warp).phase
  have tail := invariant.tail_le
  have bounded := invariant.bounded
  have positive := shape.warps_pos
  have awaits : (system.warps warp).phase.looks = true →
      system.control.Awaits (system.warps warp).ownedIndex := by
    intro looks
    by_contra idle
    exact busy ⟨looks, idle⟩
  have start : (system.warps warp).phase.looks = true →
      (system.warps warp).ownedIndex < system.control.taskTail →
        (system.move warp (.loadTask (taskCount shape (system.warps warp).ownedIndex
          system.control.taskTail) [])).work < system.work := by
    intro looks below
    obtain ⟨some_, near⟩ := @taskCount_spec shape _ _ below (by omega)
    exact work_move_lt (Warp.work_start_lt looks some_ positive near)
  unfold System.warpStep
  dsimp only
  cases phase : (system.warps warp).phase with
  | loadTail =>
      have looks : (system.warps warp).phase.looks = true := phase ▸ rfl
      right
      dsimp only
      by_cases none : system.control.taskTail ≤ (system.warps warp).ownedIndex
      · rw [if_pos none]
        refine work_move_lt (Warp.work_look_lt looks rfl (awaits looks) ?_)
        rw [phase]
        unfold Control.lookWork
        dsimp only
        rw [if_neg (Nat.not_lt.mpr none)]
        exact Nat.lt_succ_self 2
      · rw [if_neg none]
        exact start looks (Nat.not_le.mp none)
  | loadStop =>
      have looks : (system.warps warp).phase.looks = true := phase ▸ rfl
      right
      dsimp only
      by_cases stop : system.control.stopRequested ≠ 0
      · rw [if_pos stop]
        refine work_move_lt (Warp.work_look_lt looks rfl (awaits looks) ?_)
        rw [phase]
        exact Nat.lt_succ_self 1
      · rw [if_neg stop]
        refine work_move_lt (Warp.work_look_lt looks rfl (awaits looks) ?_)
        rw [phase]
        unfold Control.lookWork
        dsimp only
        rw [if_pos ((awaits looks).resolve_right stop)]
        exact Nat.lt_succ_self 1
  | loadFinalTail =>
      have looks : (system.warps warp).phase.looks = true := phase ▸ rfl
      right
      dsimp only
      by_cases none : system.control.taskTail ≤ (system.warps warp).ownedIndex
      · rw [if_pos none]
        apply work_move_lt
        rw [Warp.work_of_looks looks, if_pos (awaits looks), phase]
        exact Nat.lt_of_lt_of_le Nat.zero_lt_one (Nat.le_add_left ..)
      · rw [if_neg none]
        exact start looks (Nat.not_le.mp none)
  | loadTask count tasks =>
      rw [phase] at known
      obtain ⟨inside, -⟩ := known
      right
      dsimp only
      generalize system.taskSlots _ = task
      have length : (tasks ++ [task]).length = tasks.length + 1 := List.length_append
      by_cases more : (tasks ++ [task]).length < count
      · rw [if_pos more]
        refine work_move_lt ?_
        unfold Warp.work
        rw [phase]
        dsimp only
        omega
      · rw [if_neg more]
        refine work_move_lt ?_
        unfold Warp.work
        rw [phase]
        have all : count = (tasks ++ [task]).length := by omega
        dsimp only
        rw [← all]
        omega
  | copy tasks batchIndex =>
      rw [phase] at known
      obtain ⟨inside, -⟩ := known
      have found : tasks[batchIndex]? = some tasks[batchIndex] := List.getElem?_eq_getElem inside
      right
      dsimp only
      rw [found]
      dsimp only
      by_cases more : batchIndex + 1 < tasks.length
      · rw [if_pos more]
        refine work_lt rfl rfl ?_
        unfold Warp.work
        rw [phase]
        dsimp only
        omega
      · rw [if_neg more]
        refine work_lt rfl rfl ?_
        unfold Warp.work
        rw [phase]
        dsimp only
        omega
  | writeCompletion tasks lane =>
      rw [phase] at known
      obtain ⟨inside, -⟩ := known
      have found : tasks[lane]? = some tasks[lane] := List.getElem?_eq_getElem inside
      right
      dsimp only
      rw [found]
      refine work_lt rfl rfl ?_
      unfold Warp.work
      rw [phase]
      dsimp only
      omega
  | publish tasks lane =>
      rw [phase] at known
      obtain ⟨inside, near, -⟩ := known
      right
      have before : (system.warps warp).work system.control shape.copyWarps =
          9 * (system.control.taskTail + shape.copyWarps -
            ((system.warps warp).ownedIndex + tasks.length * shape.copyWarps)) +
              2 * (tasks.length - lane) + 3 := by
        unfold Warp.work
        rw [phase]
      dsimp only
      split_ifs with more
      · refine work_lt rfl rfl ?_
        rw [before]
        unfold Warp.work
        dsimp only
        omega
      · refine work_lt rfl rfl (Nat.lt_of_le_of_lt (Warp.work_le_of_looks rfl) ?_)
        rw [before, wrapAdd_of_lt (by omega)]
        dsimp only
        omega
  | stopped => exact .inl rfl

theorem Invariant.work_polls (invariant : system.Invariant) {warp : Fin shape.copyWarps}
    (polls : system.Polls warp) : (system.warpStep warp).work = system.work := by
  obtain ⟨looks, idle⟩ := polls
  have known := (invariant.warps warp).phase
  obtain ⟨none, going⟩ := not_or.mp idle
  -- A look in vain is followed by another one.
  have stays : ∀ phase : Phase, phase.looks = true →
      (system.move warp phase).work = system.work := by
    intro phase also
    have each : ∀ other, (Function.update system.warps warp
        { system.warps warp with phase } other).work system.control shape.copyWarps =
          (system.warps other).work system.control shape.copyWarps := by
      intro other
      rw [Function.update_apply]
      split_ifs with same
      · have after : Warp.work system.control shape.copyWarps
            { system.warps warp with phase } = _ := Warp.work_of_looks also
        rw [same, after, Warp.work_of_looks looks, if_neg idle, if_neg idle]
      · rfl
    unfold System.move work
    dsimp only
    simp only [each]
  unfold System.warpStep
  dsimp only
  cases phase : (system.warps warp).phase with
  | loadTail =>
      dsimp only
      rw [if_pos (Nat.not_lt.mp none)]
      exact stays _ rfl
  | loadStop =>
      dsimp only
      rw [if_neg going]
      exact stays _ rfl
  | loadFinalTail =>
      rw [phase] at known
      exact absurd known going
  | stopped => rfl
  | _ =>
      rw [phase] at looks
      cases looks

/-- A warp changes nothing that the host has published. -/
theorem frame_warpStep (system : System shape) (warp : Fin shape.copyWarps) :
    (system.warpStep warp).control = system.control := by
  unfold System.warpStep
  dsimp only
  cases (system.warps warp).phase with
  | loadTail =>
      dsimp only
      split_ifs <;> rfl
  | loadFinalTail =>
      dsimp only
      split_ifs <;> rfl
  | copy tasks batchIndex =>
      dsimp only
      cases tasks[batchIndex]? <;> rfl
  | writeCompletion tasks lane =>
      dsimp only
      cases tasks[lane]? <;> rfl
  | publish tasks lane =>
      dsimp only
      split_ifs <;> rfl
  | _ => rfl

/-! ## Rest -/

/-- No warp has anything to do. -/
structure Rests (system : System shape) : Prop where
  invariant : system.Invariant
  still : ∀ later, ¬Works system later

namespace Rests

variable (rests : system.Rests)

include rests

/-- A warp has left, or looks in vain. -/
theorem idle (warp : Fin shape.copyWarps) :
    (system.warps warp).phase = .stopped ∨ system.Polls warp := by
  by_contra neither
  obtain ⟨going, busy⟩ := not_or.mp neither
  have less := (rests.invariant.work_warpStep busy).resolve_left going
  refine rests.still _ ⟨warp, rfl, busy, fun same => ?_⟩
  rw [same] at less
  exact Nat.lt_irrefl _ less

theorem published {index : Nat} (below : index < system.control.taskTail) :
    system.Published index := by
  have known := (rests.invariant.warps (owner shape index)).phase
  unfold Published Warp.publishedTo
  rcases rests.idle (owner shape index) with stopped | ⟨looks, idle⟩
  · rw [stopped] at known ⊢
    exact Nat.lt_of_lt_of_le below known.2
  · have none := Nat.not_lt.mp (not_or.mp idle).1
    split
    · rename_i phase
      rw [phase] at looks
      cases looks
    · rename_i phase
      rw [phase] at looks
      cases looks
    · exact Nat.lt_of_lt_of_le below none

theorem stopped (stop : system.control.stopRequested ≠ 0) (warp : Fin shape.copyWarps) :
    (system.warps warp).phase = .stopped :=
  (rests.idle warp).resolve_right fun polls => polls.2 (.inr stop)

end Rests

/-! ## Runs -/

theorem Invariant.waits {later : System shape} (invariant : system.Invariant)
    (waits : Waits system later) : later.Invariant ∧ later.work = system.work := by
  obtain ⟨warp, rfl, polls | same⟩ := waits
  · exact ⟨invariant.warpStep warp, invariant.work_polls polls⟩
  · rw [same]
    exact ⟨invariant, rfl⟩

theorem Invariant.works {later : System shape} (invariant : system.Invariant)
    (works : Works system later) : later.Invariant ∧ later.work < system.work := by
  obtain ⟨warp, rfl, busy, moved⟩ := works
  refine ⟨invariant.warpStep warp, (invariant.work_warpStep busy).resolve_left fun stopped => ?_⟩
  apply moved
  unfold System.warpStep
  dsimp only
  rw [stopped]

/-- The warps come to rest, and then everything is done. -/
structure WorksOff (system : System shape) : Prop where
  /-- In no order of steps do the warps work for ever. -/
  halts : Halts (Advances Waits Works) system
  /-- When no warp has anything to do, all published tasks are copied. -/
  copied : ∀ last, Relation.ReflTransGen Runs system last → (∀ later, ¬Works last later) →
    ∀ index < system.control.taskTail, index ∈ last.copied.map CopyRecord.index
  /-- The completions that are not polled yet are in their slots. -/
  stored : ∀ last, Relation.ReflTransGen Runs system last → (∀ later, ¬Works last later) →
    ∀ index, last.completionHead ≤ index → index < system.control.taskTail →
      (last.completionSlots (index % shape.capacity)).sequence = index + 1 ∧ last.Shows index
  /-- After a request to stop, all warps have left. -/
  exits : ∀ last, Relation.ReflTransGen Runs system last → (∀ later, ¬Works last later) →
    system.control.stopRequested ≠ 0 → ∀ warp, (last.warps warp).phase = .stopped

theorem Invariant.rests {last : System shape} (invariant : system.Invariant)
    (steps : Relation.ReflTransGen Runs system last) (still : ∀ later, ¬Works last later) :
    last.Rests ∧ last.control = system.control := by
  have kept : last.Invariant ∧ last.control = system.control := by
    clear still
    induction steps with
    | refl => exact ⟨invariant, rfl⟩
    | @tail between _ _ runs induction =>
        obtain ⟨warp, rfl⟩ := runs
        exact ⟨induction.1.warpStep warp, (between.frame_warpStep warp).trans induction.2⟩
  exact ⟨⟨kept.1, still⟩, kept.2⟩

/-- From every state that a run reaches, the warps work off what is published, in whatever order
they go on. -/
theorem partition_works_off (shape : Shape) (actions : List (Action shape))
    (bounded : (Execution.run step ({} : System shape) actions).submitted.length +
      shape.copyWarps ≤ 2 ^ 64) :
    (Execution.run step ({} : System shape) actions).WorksOff := by
  have invariant := run_keeps initial_invariant bounded
  refine ⟨?_, fun last steps still index below => ?_,
    fun last steps still index inside below => ?_, fun last steps still stop => ?_⟩
  · exact halts_of_work Invariant work Waits Works (fun _ _ => Invariant.waits)
      (fun _ _ => Invariant.works) invariant
  · obtain ⟨rests, same⟩ := invariant.rests steps still
    rw [← same] at below
    exact rests.invariant.ledger.complete index
      (rests.invariant.copied_of_published (rests.published below))
  · obtain ⟨rests, same⟩ := invariant.rests steps still
    rw [← same] at below
    exact rests.invariant.completionSlots.stored index inside (rests.published below)
  · obtain ⟨rests, same⟩ := invariant.rests steps still
    rw [← same] at stop
    exact rests.stopped stop

/-- A stop is requested when two slots hold tasks that follow answered ones. -/
def stopBehindReuse : List (Action narrow) :=
  fillSlots ++ submitTwoMore ++ [.call .requestStop, .host]

theorem partition_works_off_reusedSlots :
    ∃ last, Relation.ReflTransGen Runs
        (Execution.run step ({} : System narrow) stopBehindReuse) last ∧
      (∀ index < 6, index ∈ last.copied.map CopyRecord.index) ∧
        ∀ warp, (last.warps warp).phase = .stopped := by
  have worksOff := partition_works_off narrow stopBehindReuse (by decide +kernel)
  obtain ⟨last, steps, still⟩ := worksOff.halts.exists_rest Runs
    (fun _ _ ⟨warp, same, _⟩ => ⟨warp, same⟩) fun _ _ ⟨warp, same, _⟩ => ⟨warp, same⟩
  have tail : (Execution.run step ({} : System narrow) stopBehindReuse).control.taskTail = 6 := by
    decide +kernel
  have copied := worksOff.copied last steps still
  rw [tail] at copied
  exact ⟨last, steps, copied, worksOff.exits last steps still (by decide +kernel)⟩

end System

end Ugdr.Gpu.StaticPartition
