import Mathlib.Algebra.BigOperators.Group.Finset.Piecewise
import Ugdr.Foundation.Workload
import Ugdr.Gpu.WarpSpecializedKernelRuns

/-! # The work of the warp-specialised kernel

The accesses that the warps still have to make for the tasks that are published. A claim or a
publication sets the other copy warps looking again, so the one who makes it has that much more
work before.
-/

namespace Ugdr.Gpu.WarpSpecializedKernel

open Machine Sequenced WarpSpecialized

/-! ## The accesses of each warp -/

def LoadLane.work : LoadLane → Nat
  | .read => 4
  | .wait _ => 3
  | .write _ => 2
  | .store => 1
  | .done => 0

def CollectLane.work : CollectLane → Nat
  | .wait => 4
  | .read => 3
  | .hold _ => 2
  | .freed _ => 1
  | .written => 0

/-- What a copy warp that looks for tasks does until it claims some or leaves, if the others do
nothing. -/
def lookWork (control : SharedControl) : CopyPhase → Nat
  | .loadClaim => 3
  | .loadPublish taskClaim => if taskClaim = control.taskClaim then 2 else 5
  | .loadDone _ _ => if control.taskClaim < control.taskPublish then 4 else 1
  | .claim taskClaim _ => if taskClaim = control.taskClaim then 1 else 4
  | _ => 0

/-- The accesses for one task. -/
def CopyPhase.work : CopyPhase → Nat
  | .waitTask => 12
  | .readTask => 11
  | .copy _ => 10
  | .storeTask _ => 9
  | .waitCompletion _ => 8
  | .writeCompletion _ => 7
  | .storeCompletion => 6
  | _ => 0

/-- A copy warp has something to find. -/
def SharedControl.Awaits (control : SharedControl) : Prop :=
  control.taskClaim < control.taskPublish ∨ control.ingressDone ≠ 0

instance (control : SharedControl) : Decidable control.Awaits :=
  inferInstanceAs (Decidable (_ ∨ _))

def CopyWarp.work (control : SharedControl) (warp : CopyWarp) : Nat :=
  if warp.phase.working = true then
    12 * (warp.taskCount - (warp.batchIndex + 1)) + warp.phase.work
  else if control.Awaits then
    lookWork control warp.phase
  else
    0

/-- Every copy warp may look again after a wave is published. -/
def Ingress.work (copyWarps : Nat) (queue : Queue) (ingress : Ingress) : Nat :=
  match ingress.phase with
  | .fetch fetch =>
      (5 * copyWarps + 8) * (queue.control.taskTail - ingress.taskHead) +
        queue.fetchWork ingress.taskHead fetch + 5 * copyWarps + 2
  | .wave taskCount waveBase lanes | .publish taskCount waveBase lanes =>
      (5 * copyWarps + 8) * (queue.control.taskTail - (ingress.taskHead + taskCount)) +
        (5 * copyWarps + 3) * (taskCount - waveBase) +
          (∑ lane ∈ Finset.range taskCount, (lanes lane).work) + 5 * copyWarps + 2
  | .storeDone => 5 * copyWarps + 1
  | .stopped => 0

def Egress.work (queue : Queue) (egress : Egress) : Nat :=
  match egress.phase with
  | .fetch fetch =>
      10 * (queue.control.taskTail - egress.completionHead) +
        queue.fetchWork egress.completionHead fetch + 1
  | .collect completionCount _ lanes | .free completionCount _ lanes
  | .write completionCount lanes =>
      10 * (queue.control.taskTail - (egress.completionHead + completionCount)) +
        (∑ lane ∈ Finset.range completionCount, (lanes lane).work) + 5
  | .storeTail completionCount =>
      10 * (queue.control.taskTail - (egress.completionHead + completionCount)) + 4
  | .stopped => 0

theorem lookWork_le (control : SharedControl) (phase : CopyPhase) :
    lookWork control phase ≤ 5 := by
  unfold lookWork
  cases phase with
  | loadPublish taskClaim =>
      dsimp only
      split_ifs <;> decide
  | loadDone taskClaim taskPublish =>
      dsimp only
      split_ifs <;> decide
  | claim taskClaim count =>
      dsimp only
      split_ifs <;> decide
  | _ => exact of_decide_eq_true rfl

/-- However the shared words change, a copy warp only looks again. -/
theorem CopyWarp.work_le (control other : SharedControl) (warp : CopyWarp) :
    warp.work control ≤ warp.work other + 5 := by
  have looks := lookWork_le control warp.phase
  unfold CopyWarp.work
  split_ifs <;> omega

theorem CopyWarp.work_le_of_looking {control : SharedControl} {warp : CopyWarp}
    (looking : warp.phase.working = false) : warp.work control ≤ 5 := by
  have looks := lookWork_le control warp.phase
  unfold CopyWarp.work
  rw [if_neg (Bool.eq_false_iff.mp looking)]
  split_ifs <;> omega

theorem CopyWarp.work_working {control : SharedControl} {warp : CopyWarp}
    (working : warp.phase.working = true) : warp.work control =
      12 * (warp.taskCount - (warp.batchIndex + 1)) + warp.phase.work :=
  if_pos working

theorem CopyWarp.work_looking {control : SharedControl} {warp : CopyWarp}
    (looking : warp.phase.working = false) (awaits : control.Awaits) :
    warp.work control = lookWork control warp.phase := by
  unfold CopyWarp.work
  rw [if_neg (Bool.eq_false_iff.mp looking), if_pos awaits]

theorem CopyWarp.work_idle {control : SharedControl} {warp : CopyWarp}
    (looking : warp.phase.working = false) (idle : ¬control.Awaits) : warp.work control = 0 := by
  unfold CopyWarp.work
  rw [if_neg (Bool.eq_false_iff.mp looking), if_neg idle]

namespace System

variable {shape : Shape} {system : System shape}

def claimWork (shape : Shape) (queue : Queue) (control : SharedControl) : Nat :=
  (5 * shape.copyWarps + 13) * (queue.control.taskTail - control.taskClaim)

def work (system : System shape) : Nat :=
  system.ingress.work shape.copyWarps system.queue +
    claimWork shape system.queue system.control +
      (∑ warp, (system.copyWarps warp).work system.control) + system.egress.work system.queue

/-! ## Waiting and working -/

/-- The steps of the warps. -/
def Action.onDevice : Action shape → Prop
  | .call _ | .host => False
  | .ingress _ | .copy _ | .egress _ => True

/-- A warp looks for tasks when there are none and nobody is to stop. -/
def Polls (system : System shape) : Action shape → Prop
  | .ingress _ => (∃ fetch, system.ingress.phase = .fetch fetch) ∧
      ¬system.queue.Awaits system.ingress.taskHead
  | .copy warp => ((system.copyWarps warp).phase.working = false ∧
      (system.copyWarps warp).phase ≠ .stopped) ∧ ¬system.control.Awaits
  | .egress _ => (∃ fetch, system.egress.phase = .fetch fetch) ∧
      ¬system.queue.Awaits system.egress.completionHead
  | .call _ | .host => False

/-- A step of a warp that changes nothing or looks in vain. -/
def Waits : System shape → System shape → Prop :=
  IdleTurns step Action.onDevice Polls

/-- Any other step of a warp. -/
def Works : System shape → System shape → Prop :=
  BusyTurns step Action.onDevice Polls

/-- A warp waits for another one, or has nothing left to do. -/
def Blocked (system : System shape) : Action shape → Prop
  | .call _ | .host => False
  | .ingress lane =>
      match system.ingress.phase with
      | .fetch _ | .publish _ _ _ | .storeDone => lane ≠ 0
      | .wave taskCount waveBase lanes => lane < taskCount → lanes lane = .done ∨
          ∃ task, lanes lane = .wait task ∧ ¬(lane < waveEnd shape taskCount waveBase ∧
            (system.sharedTasks
              (sharedSlot shape (wrapAdd 64 system.ingress.taskHead lane))).sequence
              = wrapAdd 64 system.ingress.taskHead lane)
      | .stopped => True
  | .copy warp =>
      let taskIndex :=
        wrapAdd 64 (system.copyWarps warp).taskBase (system.copyWarps warp).batchIndex
      match (system.copyWarps warp).phase with
      | .waitTask =>
          (system.sharedTasks (sharedSlot shape taskIndex)).sequence ≠ wrapAdd 64 taskIndex 1
      | .waitCompletion _ =>
          (system.sharedCompletions (sharedSlot shape taskIndex)).sequence ≠ taskIndex
      | .stopped => True
      | _ => False
  | .egress lane =>
      let completionIndex := wrapAdd 64 system.egress.completionHead lane
      match system.egress.phase with
      | .fetch _ | .storeTail _ => lane ≠ 0
      | .collect completionCount waveBase lanes =>
          waveBase ≤ lane → lane < waveEnd shape completionCount waveBase →
            lanes lane = .wait ∧
                (system.sharedCompletions (sharedSlot shape completionIndex)).sequence ≠
                  wrapAdd 64 completionIndex 1 ∨
              (lanes lane).isHold = true ∨ (lanes lane).isFreed = true ∨ lanes lane = .written
      | .free completionCount waveBase lanes =>
          waveBase ≤ lane → lane < waveEnd shape completionCount waveBase →
            (lanes lane).isHold = false
      | .write completionCount lanes => lane < completionCount → (lanes lane).isFreed = false
      | .stopped => True

/-! ## Steps of the ingress warp -/

theorem work_ingress_lt {slots : Nat → Slot CopyTask} {ingress : Ingress}
    (less : ingress.work shape.copyWarps system.queue <
      system.ingress.work shape.copyWarps system.queue) :
    ({ system with sharedTasks := slots, ingress } : System shape).work < system.work :=
  Nat.add_lt_add_right (Nat.add_lt_add_right (Nat.add_lt_add_right less _) _) _

/-- A step that changes the shared words makes up for the looks that follow. -/
theorem work_control_lt {control : SharedControl} {ingress : Ingress}
    (claim : control.taskClaim = system.control.taskClaim)
    (less : ingress.work shape.copyWarps system.queue + 5 * shape.copyWarps <
      system.ingress.work shape.copyWarps system.queue) :
    ({ system with control, ingress } : System shape).work < system.work := by
  have looks : ∑ warp, (system.copyWarps warp).work control ≤
      (∑ warp, (system.copyWarps warp).work system.control) + 5 * shape.copyWarps := by
    calc ∑ warp, (system.copyWarps warp).work control
        ≤ ∑ warp, ((system.copyWarps warp).work system.control + 5) :=
          Finset.sum_le_sum fun warp _ => (system.copyWarps warp).work_le control system.control
      _ = (∑ warp, (system.copyWarps warp).work system.control) + 5 * shape.copyWarps := by
          rw [Finset.sum_add_distrib, Finset.sum_const, Finset.card_univ, Fintype.card_fin,
            smul_eq_mul, Nat.mul_comm]
  unfold work claimWork
  dsimp only
  rw [claim]
  omega

theorem work_lanes_lt {taskCount waveBase lane : Nat} {lanes : Nat → LoadLane} {next : LoadLane}
    {ingress : Ingress} (phase : system.ingress.phase = .wave taskCount waveBase lanes)
    (inside : lane < taskCount) (less : next.work < (lanes lane).work)
    (shown : ingress = ⟨system.ingress.taskHead,
        .wave taskCount waveBase (Function.update lanes lane next)⟩ ∨
      ingress = loaded shape system.ingress.taskHead taskCount waveBase
        (Function.update lanes lane next)) :
    ingress.work shape.copyWarps system.queue <
      system.ingress.work shape.copyWarps system.queue := by
  have sum := sum_update_lt _ LoadLane.work lanes (Finset.mem_range.mpr inside) less
  have waved : Ingress.work shape.copyWarps system.queue ⟨system.ingress.taskHead,
        .wave taskCount waveBase (Function.update lanes lane next)⟩ <
      system.ingress.work shape.copyWarps system.queue := by
    unfold Ingress.work
    rw [phase]
    dsimp only
    omega
  rcases shown with rfl | rfl
  · exact waved
  · unfold loaded
    split_ifs
    · exact waved
    · exact waved

theorem Invariant.work_ingressStep (invariant : system.Invariant) {lane : Nat}
    (busy : ¬system.Polls (.ingress lane)) :
    (system.Blocked (.ingress lane) ∧ system.ingressStep lane = system) ∨
      (system.ingressStep lane).work < system.work := by
  have known := invariant.ingress.phase
  have bounded := invariant.queue.bounded
  have tail := invariant.queue.tail_le
  have few : warpSpecializedMetaBatch = 32 := rfl
  unfold System.ingressStep Blocked
  dsimp only
  cases phase : system.ingress.phase with
  | fetch fetch =>
      dsimp only
      by_cases other : lane ≠ 0
      · rw [if_pos other]
        exact .inl ⟨other, rfl⟩
      · rw [if_neg other]
        have awaits : system.queue.Awaits system.ingress.taskHead := by
          by_contra idle
          exact busy ⟨⟨fetch, phase⟩, idle⟩
        right
        cases fetched : system.queue.fetch system.ingress.taskHead fetch with
        | again next =>
            apply work_ingress_lt
            have less := Queue.fetchWork_again fetched awaits
            unfold Ingress.work
            rw [phase]
            dsimp only
            omega
        | batch taskCount =>
            apply work_ingress_lt
            obtain ⟨some_, -, below⟩ := invariant.queue.fetch_batch fetched
            have each : LoadLane.read.work = 4 := rfl
            have rest : system.queue.control.taskTail - system.ingress.taskHead =
                system.queue.control.taskTail - (system.ingress.taskHead + taskCount) +
                  taskCount := by omega
            have before := Nat.add_mul (5 * shape.copyWarps) 8 taskCount
            have after := Nat.add_mul (5 * shape.copyWarps) 3 taskCount
            unfold Ingress.work
            rw [phase]
            dsimp only
            rw [Finset.sum_const, Finset.card_range, smul_eq_mul, each, rest,
              Nat.mul_add (5 * shape.copyWarps + 8), Nat.sub_zero]
            omega
        | stop =>
            apply work_ingress_lt
            unfold Ingress.work
            rw [phase]
            dsimp only
            omega
  | wave taskCount waveBase lanes =>
      dsimp only
      by_cases outside : taskCount ≤ lane
      · rw [if_pos outside]
        exact .inl ⟨fun inside => absurd inside (Nat.not_lt.mpr outside), rfl⟩
      · rw [if_neg outside]
        have inside := Nat.not_le.mp outside
        cases state : lanes lane with
        | read =>
            exact .inr (work_ingress_lt (work_lanes_lt phase inside
              (by rw [state]; exact Nat.lt_succ_self 3) (.inr rfl)))
        | wait task =>
            dsimp only
            split_ifs with passes
            · exact .inr (work_ingress_lt (work_lanes_lt phase inside
                (by rw [state]; exact Nat.lt_succ_self 2) (.inl rfl)))
            · exact .inl ⟨fun _ => .inr ⟨task, rfl, passes⟩, rfl⟩
        | write task =>
            exact .inr (work_ingress_lt (work_lanes_lt phase inside
              (by rw [state]; exact Nat.lt_succ_self 1) (.inl rfl)))
        | store =>
            exact .inr (work_ingress_lt (work_lanes_lt phase inside
              (by rw [state]; exact Nat.lt_succ_self 0) (.inr rfl)))
        | done => exact .inl ⟨fun _ => .inl rfl, rfl⟩
  | publish taskCount waveBase lanes =>
      rw [phase] at known
      obtain ⟨batch, -⟩ := known
      have below := batch.below
      have further := lt_waveEnd shape batch.inside
      dsimp only
      by_cases other : lane ≠ 0
      · rw [if_pos other]
        exact .inl ⟨other, rfl⟩
      · rw [if_neg other]
        refine .inr (work_control_lt rfl ?_)
        have looks := system.queue.fetchWork_le (system.ingress.taskHead + taskCount) .loadTail
        have depth := shape.depthPos
        split_ifs with last
        · -- The last wave of the batch pays for the looks, and for a look of its own.
          have pays : 5 * shape.copyWarps + 3 ≤
              (5 * shape.copyWarps + 3) * (taskCount - waveBase) :=
            Nat.le_mul_of_pos_right _ (Nat.sub_pos_of_lt batch.inside)
          rw [wrapAdd_of_lt (by omega)]
          unfold Ingress.work
          rw [phase]
          dsimp only
          omega
        · have rest : taskCount - waveBase =
              taskCount - (waveBase + shape.sharedQueueDepth) + shape.sharedQueueDepth := by omega
          have pays : 5 * shape.copyWarps + 3 ≤
              (5 * shape.copyWarps + 3) * shape.sharedQueueDepth :=
            Nat.le_mul_of_pos_right _ depth
          unfold Ingress.work
          rw [phase]
          dsimp only
          rw [rest, Nat.mul_add (5 * shape.copyWarps + 3)]
          omega
  | storeDone =>
      dsimp only
      by_cases other : lane ≠ 0
      · rw [if_pos other]
        exact .inl ⟨other, rfl⟩
      · rw [if_neg other]
        refine .inr (work_control_lt rfl ?_)
        unfold Ingress.work
        rw [phase]
        dsimp only
        omega
  | stopped => exact .inl ⟨trivial, rfl⟩

theorem Invariant.work_ingressPolls (invariant : system.Invariant) {lane : Nat}
    (polls : system.Polls (.ingress lane)) : (system.ingressStep lane).work = system.work := by
  obtain ⟨⟨fetch, phase⟩, idle⟩ := polls
  have known := invariant.ingress.phase
  rw [phase] at known
  obtain ⟨next, fetched, same⟩ := Queue.fetch_idle idle known
  unfold System.ingressStep
  rw [phase]
  dsimp only
  split_ifs
  · rfl
  · rw [fetched]
    unfold work Ingress.work
    rw [phase]
    dsimp only
    rw [same]

/-! ## Steps of the copy warps -/

theorem work_warp_lt {tasks : Nat → Slot CopyTask} {completions : Nat → Slot CopyCompletion}
    {copied : List CopyRecord} {warp : Fin shape.copyWarps} {next : CopyWarp}
    (less : next.work system.control < (system.copyWarps warp).work system.control) :
    ({ system with
      sharedTasks := tasks
      sharedCompletions := completions
      copied
      copyWarps := Function.update system.copyWarps warp next } : System shape).work <
        system.work :=
  Nat.add_lt_add_right (Nat.add_lt_add_left
    (sum_update_lt _ (CopyWarp.work system.control) system.copyWarps (Finset.mem_univ warp) less)
      _) _

/-- A claim makes up for its tasks and for the looks of the others. -/
theorem work_claim_lt {warp : Fin shape.copyWarps} {count : Nat} {next : CopyWarp}
    {control : SharedControl} (claim : control.taskClaim = system.control.taskClaim + count)
    (some_ : 0 < count)
    (below : system.control.taskClaim + count ≤ system.queue.control.taskTail)
    (tasks : next.work control ≤ 12 * count) :
    ({ system with
      control
      copyWarps := Function.update system.copyWarps warp next } : System shape).work <
        system.work := by
  have looks : ∑ other, (Function.update system.copyWarps warp next other).work control ≤
      (∑ other, (system.copyWarps other).work system.control) + 5 * shape.copyWarps +
        12 * count := by
    calc ∑ other, (Function.update system.copyWarps warp next other).work control
        ≤ ∑ other, ((system.copyWarps other).work system.control + 5 +
            if other = warp then 12 * count else 0) := by
          refine Finset.sum_le_sum fun other _ => ?_
          rw [Function.update_apply]
          split_ifs with same
          · exact tasks.trans (Nat.le_add_left ..)
          · exact (system.copyWarps other).work_le _ _
      _ = (∑ other, (system.copyWarps other).work system.control) + 5 * shape.copyWarps +
            12 * count := by
          rw [Finset.sum_add_distrib, Finset.sum_add_distrib, Finset.sum_const, Finset.card_univ,
            Fintype.card_fin, smul_eq_mul, Nat.mul_comm shape.copyWarps 5, Finset.sum_ite_eq',
            if_pos (Finset.mem_univ warp)]
  have rest : system.queue.control.taskTail - system.control.taskClaim =
      system.queue.control.taskTail - (system.control.taskClaim + count) + count := by omega
  have pays : 5 * shape.copyWarps ≤ 5 * shape.copyWarps * count :=
    Nat.le_mul_of_pos_right _ some_
  unfold work claimWork
  dsimp only
  rw [claim, rest, Nat.mul_add (5 * shape.copyWarps + 13),
    Nat.add_mul (5 * shape.copyWarps) 13 count]
  omega

theorem work_phase_lt {warp : Fin shape.copyWarps} {phase : CopyPhase}
    (working : (system.copyWarps warp).phase.working = true) (also : phase.working = true)
    (less : phase.work < (system.copyWarps warp).phase.work) :
    CopyWarp.work system.control { system.copyWarps warp with phase } <
      (system.copyWarps warp).work system.control := by
  rw [CopyWarp.work_working working, CopyWarp.work_working also]
  exact Nat.add_lt_add_left less _

theorem work_look_lt {warp : Fin shape.copyWarps} {phase : CopyPhase}
    (awaits : system.control.Awaits) (looking : (system.copyWarps warp).phase.working = false)
    (also : phase.working = false)
    (less : lookWork system.control phase < lookWork system.control (system.copyWarps warp).phase) :
    CopyWarp.work system.control { system.copyWarps warp with phase } <
      (system.copyWarps warp).work system.control := by
  rw [CopyWarp.work_looking looking awaits, CopyWarp.work_looking also awaits]
  exact less

theorem Invariant.work_copyStep (invariant : system.Invariant) {warp : Fin shape.copyWarps}
    (busy : ¬system.Polls (.copy warp)) :
    (system.Blocked (.copy warp) ∧ system.copyStep warp = system) ∨
      (system.copyStep warp).work < system.work := by
  obtain ⟨inside, -, -, fits⟩ := invariant.warps warp
  have claimed := invariant.claimed
  have looks : (system.copyWarps warp).phase.working = false →
      (system.copyWarps warp).phase ≠ .stopped → system.control.Awaits := by
    intro looking going
    by_contra idle
    exact busy ⟨⟨looking, going⟩, idle⟩
  unfold System.copyStep Blocked
  dsimp only
  cases phase : (system.copyWarps warp).phase with
  | loadClaim =>
      rw [phase] at looks
      refine .inr (work_warp_lt (work_look_lt (looks rfl (by rintro ⟨⟩)) (phase ▸ rfl) rfl ?_))
      rw [phase]
      unfold lookWork
      dsimp only
      rw [if_pos rfl]
      exact Nat.lt_succ_self 2
  | loadPublish taskClaim =>
      rw [phase] at looks fits
      have awaits := looks rfl (by rintro ⟨⟩)
      have reached : taskClaim ≤ system.control.taskClaim := fits
      right
      dsimp only
      by_cases some_ : taskClaim < system.control.taskPublish
      · rw [if_pos some_]
        refine work_warp_lt (work_look_lt awaits (phase ▸ rfl) rfl ?_)
        rw [phase]
        unfold lookWork
        dsimp only
        split_ifs <;> decide
      · rw [if_neg some_]
        refine work_warp_lt (work_look_lt awaits (phase ▸ rfl) rfl ?_)
        rw [phase]
        unfold lookWork
        dsimp only
        rw [if_neg (by omega), if_pos (by omega)]
        exact Nat.lt_succ_self 1
  | loadDone taskClaim taskPublish =>
      rw [phase] at looks fits
      have awaits := looks rfl (by rintro ⟨⟩)
      right
      dsimp only
      by_cases leaves : system.control.ingressDone ≠ 0 ∧ taskPublish ≤ taskClaim
      · rw [if_pos leaves]
        refine work_warp_lt (work_look_lt awaits (phase ▸ rfl) rfl ?_)
        rw [phase]
        unfold lookWork
        dsimp only
        split_ifs <;> decide
      · rw [if_neg leaves]
        have open_ : system.control.taskClaim < system.control.taskPublish :=
          awaits.resolve_right fun done => leaves ⟨done, fits.1⟩
        refine work_warp_lt (work_look_lt awaits (phase ▸ rfl) rfl ?_)
        rw [phase]
        unfold lookWork
        dsimp only
        rw [if_pos open_]
        exact Nat.lt_succ_self 3
  | claim taskClaim count =>
      rw [phase] at looks fits
      obtain ⟨some_, below⟩ := fits
      have awaits := looks rfl (by rintro ⟨⟩)
      right
      dsimp only
      by_cases current : system.control.taskClaim = taskClaim
      · have last := invariant.known_of_published
          (show taskClaim + count - 1 < system.control.taskPublish by omega)
        have bounded := invariant.queue.bounded
        have tail := invariant.queue.tail_le
        have batch : warpSpecializedMetaBatch = 32 := rfl
        rw [if_pos current, wrapAdd_of_lt (by omega), ← current]
        refine work_claim_lt rfl some_ (by omega) ?_
        rw [CopyWarp.work_working rfl]
        change 12 * (count - (0 + 1)) + 12 ≤ 12 * count
        omega
      · rw [if_neg current]
        refine work_warp_lt (work_look_lt awaits (phase ▸ rfl) rfl ?_)
        rw [phase]
        unfold lookWork
        dsimp only
        rw [if_neg (Ne.symm current)]
        exact Nat.lt_succ_self 3
  | waitTask =>
      dsimp only
      split_ifs with passes
      · exact .inr (work_warp_lt (work_phase_lt (phase ▸ rfl) rfl
          (by rw [phase]; exact Nat.lt_succ_self 11)))
      · exact .inl ⟨passes, rfl⟩
  | readTask =>
      exact .inr (work_warp_lt (work_phase_lt (phase ▸ rfl) rfl
        (by rw [phase]; exact Nat.lt_succ_self 10)))
  | copy task =>
      exact .inr (work_warp_lt (work_phase_lt (phase ▸ rfl) rfl
        (by rw [phase]; exact Nat.lt_succ_self 9)))
  | storeTask task =>
      exact .inr (work_warp_lt (work_phase_lt (phase ▸ rfl) rfl
        (by rw [phase]; exact Nat.lt_succ_self 8)))
  | waitCompletion task =>
      dsimp only
      split_ifs with passes
      · exact .inr (work_warp_lt (work_phase_lt (phase ▸ rfl) rfl
          (by rw [phase]; exact Nat.lt_succ_self 7)))
      · exact .inl ⟨passes, rfl⟩
  | writeCompletion task =>
      exact .inr (work_warp_lt (work_phase_lt (phase ▸ rfl) rfl
        (by rw [phase]; exact Nat.lt_succ_self 6)))
  | storeCompletion =>
      rw [phase] at inside
      have more := inside rfl
      refine .inr (work_warp_lt ?_)
      have before : (system.copyWarps warp).work system.control = _ :=
        CopyWarp.work_working (phase ▸ rfl)
      rw [before, phase]
      split_ifs with next
      · rw [CopyWarp.work_working rfl]
        change 12 * ((system.copyWarps warp).taskCount -
            ((system.copyWarps warp).batchIndex + 1 + 1)) + 12 <
          12 * ((system.copyWarps warp).taskCount - ((system.copyWarps warp).batchIndex + 1)) + 6
        omega
      · refine Nat.lt_of_le_of_lt (CopyWarp.work_le_of_looking rfl) ?_
        change 5 < _ + 6
        omega
  | stopped => exact .inl ⟨trivial, rfl⟩

theorem Invariant.work_copyPolls (invariant : system.Invariant) {warp : Fin shape.copyWarps}
    (polls : system.Polls (.copy warp)) : (system.copyStep warp).work = system.work := by
  obtain ⟨⟨looking, going⟩, idle⟩ := polls
  have fits := (invariant.warps warp).phase
  have claimed := invariant.claimed
  have none := not_or.mp idle
  -- A look in vain is followed by another one.
  have stays : ∀ phase : CopyPhase, phase.working = false →
      (system.moveCopy warp phase).work = system.work := by
    intro phase also
    have each : ∀ other, (Function.update system.copyWarps warp
        { system.copyWarps warp with phase } other).work system.control =
          (system.copyWarps other).work system.control := by
      intro other
      rw [Function.update_apply]
      split_ifs with same
      · rw [same, CopyWarp.work_idle looking idle, CopyWarp.work_idle also idle]
      · rfl
    unfold System.moveCopy work
    dsimp only
    simp only [each]
  unfold System.copyStep
  dsimp only
  cases phase : (system.copyWarps warp).phase with
  | loadClaim => exact stays _ rfl
  | loadPublish taskClaim =>
      dsimp only
      split_ifs <;> exact stays _ rfl
  | loadDone taskClaim taskPublish =>
      dsimp only
      rw [if_neg fun leaves => none.2 leaves.1]
      exact stays _ rfl
  | claim taskClaim count =>
      rw [phase] at fits
      obtain ⟨some_, below⟩ := fits
      have missed : system.control.taskClaim ≠ taskClaim := by
        have := none.1
        omega
      dsimp only
      rw [if_neg missed]
      exact stays _ rfl
  | stopped => exact absurd phase going
  | _ =>
      rw [phase] at looking
      cases looking

/-! ## Steps of the egress warp -/

theorem work_egress_lt {queue : Queue} {slots : Nat → Slot CopyCompletion} {egress : Egress}
    (tail : queue.control.taskTail = system.queue.control.taskTail)
    (stop : queue.control.stopRequested = system.queue.control.stopRequested)
    (less : egress.work system.queue < system.egress.work system.queue) :
    ({ system with queue, sharedCompletions := slots, egress } : System shape).work <
      system.work := by
  have fetches : queue.fetchWork = system.queue.fetchWork := by
    funext head fetch
    unfold Queue.fetchWork
    rw [tail, stop]
  have ingressSame : system.ingress.work shape.copyWarps queue =
      system.ingress.work shape.copyWarps system.queue := by
    unfold Ingress.work
    rw [tail, fetches]
  have egressSame : egress.work queue = egress.work system.queue := by
    unfold Egress.work
    rw [tail, fetches]
  unfold work claimWork
  dsimp only
  rw [ingressSame, egressSame, tail]
  exact Nat.add_lt_add_left less _

theorem work_collect_lt {completionCount waveBase lane : Nat} {lanes : Nat → CollectLane}
    {next : CollectLane} {egress : Egress}
    (phase : system.egress.phase = .collect completionCount waveBase lanes)
    (inside : lane < completionCount) (less : next.work < (lanes lane).work)
    (shown : egress = ⟨system.egress.completionHead,
        .collect completionCount waveBase (Function.update lanes lane next)⟩ ∨
      egress = collected shape system.egress.completionHead completionCount waveBase
        (Function.update lanes lane next)) :
    egress.work system.queue < system.egress.work system.queue := by
  have sum := sum_update_lt _ CollectLane.work lanes (Finset.mem_range.mpr inside) less
  have moved : Egress.work system.queue ⟨system.egress.completionHead,
        .collect completionCount waveBase (Function.update lanes lane next)⟩ <
      system.egress.work system.queue := by
    unfold Egress.work
    rw [phase]
    dsimp only
    omega
  rcases shown with rfl | rfl
  · exact moved
  · unfold collected
    split_ifs
    · exact moved
    · exact moved

theorem Invariant.work_egressStep (invariant : system.Invariant) {lane : Nat}
    (busy : ¬system.Polls (.egress lane)) :
    (system.Blocked (.egress lane) ∧ system.egressStep lane = system) ∨
      (system.egressStep lane).work < system.work := by
  have known := invariant.egress.phase
  unfold System.egressStep Blocked
  dsimp only
  cases phase : system.egress.phase with
  | fetch fetch =>
      dsimp only
      by_cases other : lane ≠ 0
      · rw [if_pos other]
        exact .inl ⟨other, rfl⟩
      · rw [if_neg other]
        have awaits : system.queue.Awaits system.egress.completionHead := by
          by_contra idle
          exact busy ⟨⟨fetch, phase⟩, idle⟩
        right
        cases fetched : system.queue.fetch system.egress.completionHead fetch with
        | again next =>
            apply work_egress_lt rfl rfl
            have less := Queue.fetchWork_again fetched awaits
            unfold Egress.work
            rw [phase]
            dsimp only
            omega
        | batch completionCount =>
            apply work_egress_lt rfl rfl
            obtain ⟨some_, -, below⟩ := invariant.queue.fetch_batch fetched
            have each : CollectLane.wait.work = 4 := rfl
            unfold Egress.work
            rw [phase]
            dsimp only
            rw [Finset.sum_const, Finset.card_range, smul_eq_mul, each]
            omega
        | stop =>
            apply work_egress_lt rfl rfl
            unfold Egress.work
            rw [phase]
            dsimp only
            omega
  | collect completionCount waveBase lanes =>
      have ends := waveEnd_le shape completionCount waveBase
      dsimp only
      by_cases outside : lane < waveBase ∨ waveEnd shape completionCount waveBase ≤ lane
      · rw [if_pos outside]
        exact .inl ⟨fun from_ below => by omega, rfl⟩
      · rw [if_neg outside]
        have inside : lane < completionCount := by omega
        cases state : lanes lane with
        | wait =>
            dsimp only
            split_ifs with full
            · exact .inr (work_egress_lt rfl rfl (work_collect_lt phase inside
                (by rw [state]; exact Nat.lt_succ_self 3) (.inl rfl)))
            · exact .inl ⟨fun _ _ => .inl ⟨rfl, full⟩, rfl⟩
        | read =>
            exact .inr (work_egress_lt rfl rfl (work_collect_lt phase inside
              (by rw [state]; exact Nat.lt_succ_self 2) (.inr rfl)))
        | hold completion => exact .inl ⟨fun _ _ => .inr (.inl rfl), rfl⟩
        | freed completion => exact .inl ⟨fun _ _ => .inr (.inr (.inl rfl)), rfl⟩
        | written => exact .inl ⟨fun _ _ => .inr (.inr (.inr rfl)), rfl⟩
  | free completionCount waveBase lanes =>
      have ends := waveEnd_le shape completionCount waveBase
      dsimp only
      by_cases outside : lane < waveBase ∨ waveEnd shape completionCount waveBase ≤ lane
      · rw [if_pos outside]
        exact .inl ⟨fun from_ below => by omega, rfl⟩
      · rw [if_neg outside]
        have inside : lane < completionCount := by omega
        cases state : lanes lane with
        | hold completion =>
            refine .inr (work_egress_lt rfl rfl ?_)
            have less : (CollectLane.freed completion).work < (lanes lane).work := by
              rw [state]
              exact Nat.lt_succ_self 1
            have sum := sum_update_lt _ CollectLane.work lanes (Finset.mem_range.mpr inside) less
            unfold System.freed
            split_ifs
            all_goals
              unfold Egress.work
              rw [phase]
              dsimp only
              omega
        | _ => exact .inl ⟨fun _ _ => rfl, rfl⟩
  | write completionCount lanes =>
      dsimp only
      by_cases outside : completionCount ≤ lane
      · rw [if_pos outside]
        exact .inl ⟨fun inside => absurd inside (Nat.not_lt.mpr outside), rfl⟩
      · rw [if_neg outside]
        have inside := Nat.not_le.mp outside
        cases state : lanes lane with
        | freed completion =>
            refine .inr (work_egress_lt rfl rfl ?_)
            have less : CollectLane.written.work < (lanes lane).work := by
              rw [state]
              exact Nat.lt_succ_self 0
            have sum := sum_update_lt _ CollectLane.work lanes (Finset.mem_range.mpr inside) less
            unfold written
            split_ifs
            all_goals
              unfold Egress.work
              rw [phase]
              dsimp only
              omega
        | _ => exact .inl ⟨fun _ => rfl, rfl⟩
  | storeTail completionCount =>
      rw [phase] at known
      obtain ⟨batch, -⟩ := known
      dsimp only
      by_cases other : lane ≠ 0
      · rw [if_pos other]
        exact .inl ⟨other, rfl⟩
      · rw [if_neg other, batch.index_eq invariant (Nat.le_refl _)]
        refine .inr (work_egress_lt rfl rfl ?_)
        have looks := system.queue.fetchWork_le
          (system.egress.completionHead + completionCount) .loadTail
        unfold Egress.work
        rw [phase]
        dsimp only
        omega
  | stopped => exact .inl ⟨trivial, rfl⟩

theorem Invariant.work_egressPolls (invariant : system.Invariant) {lane : Nat}
    (polls : system.Polls (.egress lane)) : (system.egressStep lane).work = system.work := by
  obtain ⟨⟨fetch, phase⟩, idle⟩ := polls
  have known := invariant.egress.phase
  rw [phase] at known
  obtain ⟨next, fetched, same⟩ := Queue.fetch_idle idle known
  unfold System.egressStep
  rw [phase]
  dsimp only
  split_ifs
  · rfl
  · rw [fetched]
    unfold work Egress.work
    rw [phase]
    dsimp only
    rw [same]

/-! ## Steps of all warps -/

theorem Invariant.work_step (invariant : system.Invariant) {action : Action shape}
    (device : action.onDevice) (busy : ¬system.Polls action) :
    (system.Blocked action ∧ System.step system action = system) ∨
      (System.step system action).work < system.work := by
  cases action with
  | call call => exact device.elim
  | host => exact device.elim
  | ingress lane => exact invariant.work_ingressStep busy
  | copy warp => exact invariant.work_copyStep busy
  | egress lane => exact invariant.work_egressStep busy

theorem Invariant.work_polls (invariant : system.Invariant) {action : Action shape}
    (polls : system.Polls action) : (System.step system action).work = system.work := by
  cases action with
  | call call => exact polls.elim
  | host => exact polls.elim
  | ingress lane => exact invariant.work_ingressPolls polls
  | copy warp => exact invariant.work_copyPolls polls
  | egress lane => exact invariant.work_egressPolls polls

end System

end Ugdr.Gpu.WarpSpecializedKernel
