import Ugdr.Foundation.Workload
import Ugdr.Gpu.PipelineRuns

/-! # The work of the pipeline kernel

The accesses that the warps still have to make for the tasks that are published. A step of a
warp makes one of them, unless the warp waits for another one or looks for tasks where there
are none.
-/

namespace Ugdr.Gpu.Pipeline

open Machine Handshake WarpSpecialized

/-! ## The accesses of each warp -/

def FillLane.work : FillLane → Nat
  | .wait => 4
  | .read => 3
  | .write _ => 2
  | .arrive => 1
  | .done => 0

def CopyPhase.work : CopyPhase → Nat
  | .waitReady => 7
  | .readTask => 6
  | .arriveConsumed _ => 5
  | .copy _ => 4
  | .waitConsumed _ => 3
  | .writeCompletion _ => 2
  | .arriveReady => 1
  | .stopped => 0

def CollectLane.work : CollectLane → Nat
  | .wait => 3
  | .read => 2
  | .write _ => 1
  | .done => 0

def arrivalWork (arrived : Bool) : Nat :=
  if arrived = true then 0 else 1

/-- Each task behind the batch is given eight accesses, and the tasks that stop the copy warps
four each. -/
def Ingress.work (copyWarps : Nat) (queue : Queue) (ingress : Ingress) : Nat :=
  match ingress.phase with
  | .fetch fetch =>
      8 * (queue.control.taskTail - ingress.taskHead) +
        queue.fetchWork ingress.taskHead fetch + 4 * copyWarps + 1
  | .fill stopping taskCount lanes =>
      (∑ lane ∈ Finset.range taskCount, (lanes lane).work) +
        if stopping = true then 0
        else 8 * (queue.control.taskTail - (ingress.taskHead + taskCount)) + 4 * copyWarps + 3
  | .stopped => 0

def CopyWarp.work (queue : Queue) (warp : CopyWarp) : Nat :=
  8 * (queue.control.taskTail + 1 - warp.localIndex) + warp.phase.work

def Egress.work (queue : Queue) (egress : Egress) : Nat :=
  match egress.phase with
  | .fetch fetch =>
      8 * (queue.control.taskTail - egress.completionHead) +
        queue.fetchWork egress.completionHead fetch + 1
  | .collect completionCount lanes =>
      (∑ lane ∈ Finset.range completionCount, (lanes lane).work) +
        8 * (queue.control.taskTail - (egress.completionHead + completionCount)) +
          completionCount + 4
  | .release completionCount stored arrived =>
      (∑ lane ∈ Finset.range completionCount, arrivalWork (arrived lane)) +
        8 * (queue.control.taskTail - (egress.completionHead + completionCount)) +
          arrivalWork stored + 3
  | .stopped => 0

namespace System

variable {shape : Shape} {system : System shape}

def work (system : System shape) : Nat :=
  system.ingress.work shape.copyWarps system.queue +
    (∑ warp, (system.copyWarps warp).work system.queue) + system.egress.work system.queue

/-! ## Waiting and working -/

/-- The steps of the warps. -/
def Action.onDevice : Action shape → Prop
  | .call _ | .host => False
  | .ingress _ | .copy _ | .egress _ => True

/-- A warp looks for tasks when there are none and no stop is requested. -/
def Polls (system : System shape) : Action shape → Prop
  | .ingress _ => (∃ fetch, system.ingress.phase = .fetch fetch) ∧
      ¬system.queue.Awaits system.ingress.taskHead
  | .egress _ => (∃ fetch, system.egress.phase = .fetch fetch) ∧
      ¬system.queue.Awaits system.egress.completionHead
  | .call _ | .host | .copy _ => False

/-- A step of a warp that changes nothing or looks in vain. -/
def Waits : System shape → System shape → Prop :=
  IdleTurns step Action.onDevice Polls

/-- Any other step of a warp. -/
def Works : System shape → System shape → Prop :=
  BusyTurns step Action.onDevice Polls

/-- A warp waits for another one, or has nothing left to do. -/
def Blocked (system : System shape) : Action shape → Prop
  | .call _ | .host => False
  | .ingress lane =>
      match system.ingress.phase with
      | .fetch _ => lane ≠ 0
      | .fill _ taskCount lanes => lane < taskCount → lanes lane = .done ∨
          lanes lane = .wait ∧ ¬passed (system.sharedTasks
            (indexSlot shape (wrapAdd 64 system.ingress.taskHead lane))).consumed
              (!indexPhase shape (wrapAdd 64 system.ingress.taskHead lane)) = true
      | .stopped => True
  | .copy warp =>
      match (system.copyWarps warp).phase with
      | .waitReady => ¬passed (system.sharedTasks
          (slotIndex shape warp (system.copyWarps warp).localIndex)).ready
            (phase shape (system.copyWarps warp).localIndex) = true
      | .waitConsumed _ => ¬passed (system.sharedCompletions
          (slotIndex shape warp (system.copyWarps warp).localIndex)).consumed
            (!phase shape (system.copyWarps warp).localIndex) = true
      | .stopped => True
      | _ => False
  | .egress lane =>
      match system.egress.phase with
      | .fetch _ => lane ≠ 0
      | .collect completionCount lanes => lane < completionCount → lanes lane = .done ∨
          lanes lane = .wait ∧ ¬passed (system.sharedCompletions
            (indexSlot shape (wrapAdd 64 system.egress.completionHead lane))).ready
              (indexPhase shape (wrapAdd 64 system.egress.completionHead lane)) = true
      | .release completionCount _ arrived => lane < completionCount → arrived lane = true
      | .stopped => True

/-! ## Steps of the ingress warp -/

theorem work_ingress_lt {cells : Nat → Cell CopyTask} {ingress : Ingress}
    (less : ingress.work shape.copyWarps system.queue <
      system.ingress.work shape.copyWarps system.queue) :
    ({ system with sharedTasks := cells, ingress } : System shape).work < system.work :=
  Nat.add_lt_add_right (Nat.add_lt_add_right less _) _

theorem work_fill_lt {stopping : Bool} {taskCount lane : Nat} {lanes : Nat → FillLane}
    {next : FillLane} (filling : system.ingress.phase = .fill stopping taskCount lanes)
    (inside : lane < taskCount) (less : next.work < (lanes lane).work) :
    Ingress.work shape.copyWarps system.queue
        { taskHead := system.ingress.taskHead
          phase := .fill stopping taskCount (Function.update lanes lane next) } <
      system.ingress.work shape.copyWarps system.queue := by
  unfold Ingress.work
  rw [filling]
  exact Nat.add_lt_add_right
    (sum_update_lt _ FillLane.work lanes (Finset.mem_range.mpr inside) less) _

theorem Invariant.work_ingressStep (invariant : system.Invariant) {lane : Nat}
    (busy : ¬system.Polls (.ingress lane)) :
    (system.Blocked (.ingress lane) ∧ system.ingressStep lane = system) ∨
      (system.ingressStep lane).work < system.work := by
  unfold System.ingressStep Blocked
  dsimp only
  cases phase : system.ingress.phase with
  | fetch fetch =>
      dsimp only
      by_cases other : lane ≠ 0
      · rw [if_pos other]
        exact .inl ⟨other, rfl⟩
      · rw [if_neg other]
        have awaits : system.queue.Awaits system.ingress.taskHead := by
          by_contra idle
          exact busy ⟨⟨fetch, phase⟩, idle⟩
        right
        cases fetched : system.queue.fetch system.ingress.taskHead fetch with
        | again next =>
            apply work_ingress_lt
            have less := Queue.fetchWork_again fetched awaits
            unfold Ingress.work
            rw [phase]
            dsimp only
            omega
        | batch taskCount =>
            apply work_ingress_lt
            obtain ⟨some_, -, below⟩ := invariant.queue.fetch_batch fetched
            have each : FillLane.wait.work = 4 := rfl
            unfold Ingress.work
            rw [phase]
            dsimp only
            rw [Finset.sum_const, Finset.card_range, smul_eq_mul, each, if_neg Bool.false_ne_true]
            omega
        | stop =>
            apply work_ingress_lt
            have each : FillLane.wait.work = 4 := rfl
            unfold Ingress.work
            rw [phase]
            dsimp only
            rw [Finset.sum_const, Finset.card_range, smul_eq_mul, each, if_pos rfl]
            omega
  | fill stopping taskCount lanes =>
      dsimp only
      by_cases outside : taskCount ≤ lane
      · rw [if_pos outside]
        exact .inl ⟨fun inside => absurd inside (Nat.not_lt.mpr outside), rfl⟩
      · rw [if_neg outside]
        have inside := Nat.not_le.mp outside
        have filling := invariant.filling phase
        cases state : lanes lane with
        | wait =>
            dsimp only
            split_ifs with passes stop
            · exact .inr (work_ingress_lt (work_fill_lt phase inside (by rw [state]; decide)))
            · exact .inr (work_ingress_lt (work_fill_lt phase inside (by rw [state]; decide)))
            · exact .inl ⟨fun _ => .inr ⟨rfl, passes⟩, rfl⟩
        | read =>
            exact .inr (work_ingress_lt
              (work_fill_lt phase inside (by rw [state]; exact Nat.lt_succ_self 2)))
        | write task =>
            exact .inr (work_ingress_lt
              (work_fill_lt phase inside (by rw [state]; exact Nat.lt_succ_self 1)))
        | arrive =>
            refine .inr (work_ingress_lt ?_)
            have less : FillLane.done.work < (lanes lane).work := by
              rw [state]
              decide
            have some_ : 0 < ∑ other ∈ Finset.range taskCount, (lanes other).work :=
              Finset.sum_pos' (fun _ _ => Nat.zero_le _)
                ⟨lane, Finset.mem_range.mpr inside, less⟩
            unfold filled
            split_ifs with all stop
            · unfold Ingress.work
              rw [phase]
              dsimp only
              omega
            · rw [filling.index_eq_count invariant]
              have few := system.queue.fetchWork_le (system.ingress.taskHead + taskCount) .loadTail
              unfold Ingress.work
              rw [phase]
              dsimp only
              rw [if_neg stop]
              omega
            · exact work_fill_lt phase inside less
        | done => exact .inl ⟨fun _ => .inl rfl, rfl⟩
  | stopped => exact .inl ⟨trivial, rfl⟩

theorem Invariant.work_ingressPolls (invariant : system.Invariant) {lane : Nat}
    (polls : system.Polls (.ingress lane)) : (system.ingressStep lane).work = system.work := by
  obtain ⟨⟨fetch, phase⟩, idle⟩ := polls
  have known := invariant.ingress.phase
  rw [phase] at known
  obtain ⟨next, fetched, same⟩ := Queue.fetch_idle idle known
  unfold System.ingressStep
  rw [phase]
  dsimp only
  split_ifs
  · rfl
  · rw [fetched]
    unfold work Ingress.work
    rw [phase]
    dsimp only
    rw [same]

/-! ## Steps of the copy warps -/

theorem work_warp_lt {tasks : Nat → Cell CopyTask} {completions : Nat → Cell CopyCompletion}
    {copied : List CopyRecord} {warp : Fin shape.copyWarps} {next : CopyWarp}
    (less : next.work system.queue < (system.copyWarps warp).work system.queue) :
    ({ system with
      sharedTasks := tasks
      sharedCompletions := completions
      copied
      copyWarps := Function.update system.copyWarps warp next } : System shape).work <
        system.work :=
  Nat.add_lt_add_right (Nat.add_lt_add_left
    (sum_update_lt _ (CopyWarp.work system.queue) system.copyWarps (Finset.mem_univ warp) less) _) _

/-- A copy warp stays at its index. -/
theorem work_phase_lt {warp : Fin shape.copyWarps} {phase : CopyPhase}
    (less : phase.work < (system.copyWarps warp).phase.work) :
    CopyWarp.work system.queue { system.copyWarps warp with phase } <
      (system.copyWarps warp).work system.queue :=
  Nat.add_lt_add_left less _

theorem Invariant.work_copyStep (invariant : system.Invariant) (warp : Fin shape.copyWarps) :
    (system.Blocked (.copy warp) ∧ system.copyStep warp = system) ∨
      (system.copyStep warp).work < system.work := by
  obtain ⟨filled, fits⟩ := invariant.warps warp
  unfold System.copyStep Blocked
  dsimp only
  cases phase : (system.copyWarps warp).phase with
  | waitReady =>
      dsimp only
      split_ifs with passes
      · exact .inr (work_warp_lt (work_phase_lt (by rw [phase]; decide)))
      · exact .inl ⟨passes, rfl⟩
  | readTask => exact .inr (work_warp_lt (work_phase_lt (by rw [phase]; exact Nat.lt_succ_self 5)))
  | arriveConsumed task =>
      refine .inr (work_warp_lt (work_phase_lt ?_))
      rw [phase]
      split_ifs
      · exact Nat.succ_pos 4
      · exact Nat.lt_succ_self 4
  | copy task => exact .inr (work_warp_lt (work_phase_lt (by rw [phase]; exact Nat.lt_succ_self 3)))
  | waitConsumed task =>
      dsimp only
      split_ifs with passes
      · exact .inr (work_warp_lt (work_phase_lt (by rw [phase]; exact Nat.lt_succ_self 2)))
      · exact .inl ⟨passes, rfl⟩
  | writeCompletion task =>
      exact .inr (work_warp_lt (work_phase_lt (by rw [phase]; exact Nat.lt_succ_self 1)))
  | arriveReady =>
      rw [phase] at fits filled
      have submitted := List.getElem?_eq_some_iff.mp (submitted_of_length fits.1)
      have below : system.current warp < system.queue.control.taskTail := by
        rcases invariant.known_of_filled (filled (by rintro ⟨⟩)) with below | stop
        · exact below
        · rw [invariant.queue.tail_of_stopped stop]
          exact submitted.1
      have bounded := invariant.queue.bounded
      have tail := invariant.queue.tail_le
      have batch : warpSpecializedMetaBatch = 32 := rfl
      have index : (system.copyWarps warp).localIndex ≤ system.current warp :=
        (Nat.le_mul_of_pos_right _ shape.warpsPos).trans (Nat.le_add_right ..)
      refine .inr (work_warp_lt ?_)
      rw [wrapAdd_of_lt (by omega)]
      unfold CopyWarp.work
      rw [phase]
      change 8 * (_ + 1 - (_ + 1)) + 7 < 8 * (_ + 1 - _) + 1
      omega
  | stopped => exact .inl ⟨trivial, rfl⟩

/-! ## Steps of the egress warp -/

theorem work_egress_lt {queue : Queue} {cells : Nat → Cell CopyCompletion} {egress : Egress}
    (tail : queue.control.taskTail = system.queue.control.taskTail)
    (stop : queue.control.stopRequested = system.queue.control.stopRequested)
    (less : egress.work system.queue < system.egress.work system.queue) :
    ({ system with queue, sharedCompletions := cells, egress } : System shape).work <
      system.work := by
  have fetches : queue.fetchWork = system.queue.fetchWork := by
    funext head fetch
    unfold Queue.fetchWork
    rw [tail, stop]
  have ingressSame : system.ingress.work shape.copyWarps queue =
      system.ingress.work shape.copyWarps system.queue := by
    unfold Ingress.work
    rw [tail, fetches]
  have egressSame : egress.work queue = egress.work system.queue := by
    unfold Egress.work
    rw [tail, fetches]
  have warpsSame : ∀ warp : CopyWarp, warp.work queue = warp.work system.queue := by
    intro warp
    unfold CopyWarp.work
    rw [tail]
  unfold work
  dsimp only
  rw [ingressSame, egressSame]
  simp only [warpsSame]
  exact Nat.add_lt_add_left less _

theorem work_collect_lt {completionCount lane : Nat} {lanes : Nat → CollectLane}
    {next : CollectLane} (collecting : system.egress.phase = .collect completionCount lanes)
    (inside : lane < completionCount) (less : next.work < (lanes lane).work) :
    Egress.work system.queue
        { completionHead := system.egress.completionHead
          phase := .collect completionCount (Function.update lanes lane next) } <
      system.egress.work system.queue := by
  unfold Egress.work
  rw [collecting]
  exact Nat.add_lt_add_right (Nat.add_lt_add_right (Nat.add_lt_add_right
    (sum_update_lt _ CollectLane.work lanes (Finset.mem_range.mpr inside) less) _) _) _

theorem Invariant.work_egressStep (invariant : system.Invariant) {lane : Nat}
    (busy : ¬system.Polls (.egress lane)) :
    (system.Blocked (.egress lane) ∧ system.egressStep lane = system) ∨
      (system.egressStep lane).work < system.work := by
  have known := invariant.egress.phase
  unfold System.egressStep Blocked
  dsimp only
  cases phase : system.egress.phase with
  | fetch fetch =>
      dsimp only
      by_cases other : lane ≠ 0
      · rw [if_pos other]
        exact .inl ⟨other, rfl⟩
      · rw [if_neg other]
        have awaits : system.queue.Awaits system.egress.completionHead := by
          by_contra idle
          exact busy ⟨⟨fetch, phase⟩, idle⟩
        right
        cases fetched : system.queue.fetch system.egress.completionHead fetch with
        | again next =>
            apply work_egress_lt rfl rfl
            have less := Queue.fetchWork_again fetched awaits
            unfold Egress.work
            rw [phase]
            dsimp only
            omega
        | batch completionCount =>
            apply work_egress_lt rfl rfl
            obtain ⟨some_, -, below⟩ := invariant.queue.fetch_batch fetched
            have each : CollectLane.wait.work = 3 := rfl
            unfold Egress.work
            rw [phase]
            dsimp only
            rw [Finset.sum_const, Finset.card_range, smul_eq_mul, each]
            omega
        | stop =>
            apply work_egress_lt rfl rfl
            unfold Egress.work
            rw [phase]
            dsimp only
            omega
  | collect completionCount lanes =>
      dsimp only
      by_cases outside : completionCount ≤ lane
      · rw [if_pos outside]
        exact .inl ⟨fun inside => absurd inside (Nat.not_lt.mpr outside), rfl⟩
      · rw [if_neg outside]
        have inside := Nat.not_le.mp outside
        cases state : lanes lane with
        | wait =>
            dsimp only
            split_ifs with passes
            · exact .inr (work_egress_lt rfl rfl
                (work_collect_lt phase inside (by rw [state]; decide)))
            · exact .inl ⟨fun _ => .inr ⟨rfl, passes⟩, rfl⟩
        | read =>
            exact .inr (work_egress_lt rfl rfl
              (work_collect_lt phase inside (by rw [state]; exact Nat.lt_succ_self 1)))
        | write completion =>
            refine .inr (work_egress_lt rfl rfl ?_)
            have less : CollectLane.done.work < (lanes lane).work := by
              rw [state]
              exact Nat.lt_succ_self 0
            have some_ : 0 < ∑ other ∈ Finset.range completionCount, (lanes other).work :=
              Finset.sum_pos' (fun _ _ => Nat.zero_le _)
                ⟨lane, Finset.mem_range.mpr inside, less⟩
            unfold collected
            split_ifs with all
            · unfold Egress.work
              rw [phase]
              dsimp only
              have each : arrivalWork false = 1 := rfl
              rw [Finset.sum_const, Finset.card_range, smul_eq_mul, each]
              omega
            · exact work_collect_lt phase inside less
        | done => exact .inl ⟨fun _ => .inl rfl, rfl⟩
  | release completionCount stored arrived =>
      rw [phase] at known
      obtain ⟨⟨few, below⟩, -⟩ := known
      dsimp only
      by_cases outside : completionCount ≤ lane
      · rw [if_pos outside]
        exact .inl ⟨fun inside => absurd inside (Nat.not_lt.mpr outside), rfl⟩
      · rw [if_neg outside]
        have inside := Nat.not_le.mp outside
        split_ifs with first before
        · refine .inr (work_egress_lt rfl rfl ?_)
          unfold Egress.work
          rw [phase, first.2]
          exact Nat.add_lt_add_right (Nat.add_lt_add_left Nat.zero_lt_one _) _
        · exact .inl ⟨fun _ => before, rfl⟩
        · refine .inr (work_egress_lt rfl rfl ?_)
          have less : arrivalWork true < arrivalWork (arrived lane) := by
            rw [Bool.eq_false_of_not_eq_true before]
            exact Nat.lt_succ_self 0
          have some_ : 0 < ∑ other ∈ Finset.range completionCount, arrivalWork (arrived other) :=
            Finset.sum_pos' (fun _ _ => Nat.zero_le _)
              ⟨lane, Finset.mem_range.mpr inside, less⟩
          unfold released
          split_ifs with all
          · have batch : system.Batch completionCount := ⟨few, below⟩
            rw [batch.index_eq invariant (Nat.le_refl _)]
            have looks := system.queue.fetchWork_le
              (system.egress.completionHead + completionCount) .loadTail
            unfold Egress.work
            rw [phase]
            dsimp only
            omega
          · unfold Egress.work
            rw [phase]
            exact Nat.add_lt_add_right (Nat.add_lt_add_right (Nat.add_lt_add_right
              (sum_update_lt _ arrivalWork arrived (Finset.mem_range.mpr inside) less) _) _) _
  | stopped => exact .inl ⟨trivial, rfl⟩

theorem Invariant.work_egressPolls (invariant : system.Invariant) {lane : Nat}
    (polls : system.Polls (.egress lane)) : (system.egressStep lane).work = system.work := by
  obtain ⟨⟨fetch, phase⟩, idle⟩ := polls
  have known := invariant.egress.phase
  rw [phase] at known
  obtain ⟨next, fetched, same⟩ := Queue.fetch_idle idle known.1
  unfold System.egressStep
  rw [phase]
  dsimp only
  split_ifs
  · rfl
  · rw [fetched]
    unfold work Egress.work
    rw [phase]
    dsimp only
    rw [same]

/-! ## Steps of all warps -/

theorem Invariant.work_step (invariant : system.Invariant) {action : Action shape}
    (device : action.onDevice) (busy : ¬system.Polls action) :
    (system.Blocked action ∧ System.step system action = system) ∨
      (System.step system action).work < system.work := by
  cases action with
  | call call => exact device.elim
  | host => exact device.elim
  | ingress lane => exact invariant.work_ingressStep busy
  | copy warp => exact invariant.work_copyStep warp
  | egress lane => exact invariant.work_egressStep busy

theorem Invariant.work_polls (invariant : system.Invariant) {action : Action shape}
    (polls : system.Polls action) : (System.step system action).work = system.work := by
  cases action with
  | call call => exact polls.elim
  | host => exact polls.elim
  | ingress lane => exact invariant.work_ingressPolls polls
  | copy warp => exact polls.elim
  | egress lane => exact invariant.work_egressPolls polls

end System

end Ugdr.Gpu.Pipeline
